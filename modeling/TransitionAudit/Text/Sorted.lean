import TransitionAudit.Text.CodePoint

/-!
# Sorted names
-/

namespace TransitionAudit.Text

/-- Names in the order of their code points. -/
def sortNames (names : List Text) : List Text := names.mergeSort fun a b => a ≤ b

end TransitionAudit.Text
