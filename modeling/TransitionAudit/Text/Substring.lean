/-!
# Parts of sequences
-/

namespace TransitionAudit.Text

variable {α : Type} [BEq α]

/-- Whether the first sequence occurs somewhere in the second. -/
def occursIn (part : List α) : List α → Bool
  | [] => part.isEmpty
  | c :: rest => part.isPrefixOf (c :: rest) || occursIn part rest

theorem occursIn_iff [LawfulBEq α] {part s : List α} : occursIn part s ↔ part <:+: s := by
  induction s with
  | nil => simp [occursIn]
  | cons c rest ih => simp [occursIn, ih, List.infix_cons_iff]

end TransitionAudit.Text
