import TransitionAudit.Text.CodePoint

/-!
# Terminal styles

A terminal takes ESC, a bracket, numbers and a letter as an order to change colour or the like. What a
command prints is freed of them, so that names from outside cannot change the terminal.
-/

namespace TransitionAudit.Text

/-- A character of the numbers in a style sequence. -/
def isStyleNumber (p : CodePoint) : Bool := p.shown.isDigit || p = ';' || p = '?'

/-- The text after the style sequence it starts with, if it starts with one. -/
def afterStyle? : Text → Option Text
  | .char '\x1b' :: .char '[' :: rest =>
    match rest.dropWhile isStyleNumber with
    | p :: rest => if p.shown.isAlpha then some rest else none
    | [] => none
  | _ => none

theorem afterStyle?_length {t rest : Text} (h : afterStyle? t = some rest) :
    rest.length < t.length := by
  unfold afterStyle? at h
  split at h
  · rename_i tail
    have hle : (tail.dropWhile isStyleNumber).length ≤ tail.length :=
      (List.dropWhile_sublist _).length_le
    split at h
    · rename_i heq
      rw [heq] at hle
      split at h
      · obtain rfl := Option.some.inj h
        simp only [List.length_cons] at hle ⊢
        omega
      · simp at h
    · simp at h
  · simp at h

/-- A text without style sequences. -/
def unstyled (t : Text) : Text :=
  match _h : afterStyle? t with
  | some rest => unstyled rest
  | none =>
    match t with
    | [] => []
    | p :: rest => p :: unstyled rest
termination_by t.length
decreasing_by
  · exact afterStyle?_length (by assumption)
  · simp

end TransitionAudit.Text
