/-!
# Lines

A text file ends its lines with LF, CR LF or CR, mixed as it likes; no other character ends a line.
-/

namespace TransitionAudit.Text

/-- The lines of a text without their ends; what stands after the last line end is a line unless it
is empty. -/
def lines : List Char → List (List Char)
  | [] => []
  | '\n' :: rest => [] :: lines rest
  | '\r' :: '\n' :: rest => [] :: lines rest
  | '\r' :: rest => [] :: lines rest
  | c :: rest =>
    match lines rest with
    | [] => [[c]]
    | l :: ls => (c :: l) :: ls

/-- Every line end written as LF. -/
def unifyLineEnds : List Char → List Char
  | [] => []
  | '\r' :: '\n' :: rest => '\n' :: unifyLineEnds rest
  | '\r' :: rest => '\n' :: unifyLineEnds rest
  | c :: rest => c :: unifyLineEnds rest

/-- The part of a text up to and with its last line end. A CR in last place may be half of a line
end, so it does not count as one. -/
def completeLines (s : List Char) : List Char :=
  let back := s.reverse
  let back := match back with
    | '\r' :: rest => rest
    | _ => back
  (back.dropWhile fun c => c ≠ '\n' && c ≠ '\r').reverse

end TransitionAudit.Text
