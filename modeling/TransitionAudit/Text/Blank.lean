import TransitionAudit.Text.CodePoint

/-!
# Blank characters

Which characters count as blank around a line of a recording, a rule name or a transition type, and
the text that is left when they are taken off both ends.
-/

namespace TransitionAudit.Text

/-- The white space of Unicode and the four information separators U+001C to U+001F. -/
def blanks : List (Nat × Nat) :=
  [(0x9, 0xd), (0x1c, 0x20), (0x85, 0x85), (0xa0, 0xa0), (0x1680, 0x1680), (0x2000, 0x200a),
   (0x2028, 0x2029), (0x202f, 0x202f), (0x205f, 0x205f), (0x3000, 0x3000)]

/-- Whether one of the ranges holds the code point. -/
def inRanges (ranges : List (Nat × Nat)) (n : Nat) : Bool :=
  ranges.any fun (low, high) => low ≤ n && n ≤ high

def isBlank (c : Char) : Bool := inRanges blanks c.toNat

/-- Takes what counts as blank off both ends. -/
def trimBy {α : Type} (blank : α → Bool) (s : List α) : List α :=
  ((s.dropWhile blank).reverse.dropWhile blank).reverse

/-- Takes the blank characters off both ends. -/
def trim (s : List Char) : List Char := trimBy isBlank s

/-- A text without the blank characters at its ends. -/
def strip (t : Text) : Text := trimBy (fun p => isBlank p.shown) t

end TransitionAudit.Text
