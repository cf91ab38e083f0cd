import TransitionAudit.Proofs.Text.Line
import Mathlib.Data.List.DropRight

/-!
# Complete lines

The complete lines of a text are the first lines of every text that goes on from there, and they are among its
complete lines.
-/

namespace TransitionAudit.Text

/-! ## Whole lines -/

/-- Whether one text is made of whole lines before another: its last line has its end, which is not one half of a line
end that the two have in common. -/
structure EndsBefore (a b : List Char) : Prop where
  ends : EndsLine a
  seam : a.getLast? = some '\r' → b.head? ≠ some '\n'

theorem EndsBefore.of_prefix {a b c : List Char} (h : EndsBefore a b) (hc : c <+: b) : EndsBefore a c := by
  refine ⟨h.ends, fun hreturn hhead => h.seam hreturn ?_⟩
  obtain ⟨rest, rfl⟩ := List.head?_eq_some_iff.mp hhead
  obtain ⟨more, rfl⟩ := hc
  rfl

theorem SplitsInto.append_of_endsBefore {a b : List Char} {ls ls' : List (List Char)} (ha : SplitsInto a ls)
    (h : EndsBefore a b) (hb : SplitsInto b ls') : SplitsInto (a ++ b) (ls ++ ls') := by
  induction ha with
  | nil => exact hb
  | @last line plain nonempty =>
      have hlast : line.getLast nonempty ∈ line.getLast? := List.getLast?_eq_some_getLast nonempty
      obtain ⟨hline, hreturn⟩ := plain _ (List.getLast_mem nonempty)
      exact absurd (h.ends _ hlast) (by simp [hline, hreturn])
  | @ended line ending rest ls plain isEnd splits ih =>
      rw [List.append_assoc]
      by_cases hrest : rest = []
      · subst hrest
        obtain rfl := splitsInto_nil_iff.mp splits
        rcases isEnd.before_or b with hbefore | ⟨rfl, b', rfl⟩
        · exact .ended plain hbefore hb
        · exact absurd rfl (h.seam (by simp))
      · have hlast : (line ++ ending ++ rest).getLast? = rest.getLast? := List.getLast?_append_of_ne_nil _ hrest
        have hbefore : EndsBefore rest b := ⟨fun c hc => h.ends c (hlast ▸ hc), fun hreturn => h.seam (hlast ▸ hreturn)⟩
        exact .ended plain (isEnd.append hrest b) (ih hbefore)

theorem lines_append_of_endsBefore {a b : List Char} (h : EndsBefore a b) : lines (a ++ b) = lines a ++ lines b :=
  ((splitsInto_lines a).append_of_endsBefore h (splitsInto_lines b)).lines_eq

/-! ## Complete lines -/

/-- The part of a text up to and with its last character that ends a line. -/
def throughLastEnd (s : List Char) : List Char := s.rdropWhile fun c => c ≠ '\n' && c ≠ '\r'

theorem completeLines_concat_cr (s : List Char) : completeLines (s ++ ['\r']) = throughLastEnd s := by
  simp [completeLines, throughLastEnd, List.rdropWhile]

theorem completeLines_of_getLast?_ne {s : List Char} (h : s.getLast? ≠ some '\r') :
    completeLines s = throughLastEnd s := by
  rw [← List.head?_reverse] at h
  simp only [completeLines, throughLastEnd, List.rdropWhile]
  split
  · rename_i rest heq
    rw [heq] at h
    exact absurd rfl h
  · rfl

theorem endsLine_throughLastEnd (s : List Char) : EndsLine (throughLastEnd s) := by
  intro c hc
  obtain ⟨init, hinit⟩ := List.getLast?_eq_some_iff.mp hc
  have hne : throughLastEnd s ≠ [] := by simp [hinit]
  have hlast : (throughLastEnd s).getLast hne = c := by simp [hinit]
  have hstop : ¬ ((throughLastEnd s).getLast hne ≠ '\n' && (throughLastEnd s).getLast hne ≠ '\r') = true :=
    List.rdropWhile_last_not _ s hne
  rw [hlast] at hstop
  by_contra hother
  rw [not_or] at hother
  exact hstop (by simpa using hother)

theorem exists_throughLastEnd (s : List Char) : ∃ after, s = throughLastEnd s ++ after ∧ HasNoEnd after := by
  refine ⟨s.rtakeWhile fun c => c ≠ '\n' && c ≠ '\r', (List.rdropWhile_append_rtakeWhile).symm, fun c hc => ?_⟩
  simpa using List.mem_rtakeWhile_imp hc

theorem throughLastEnd_isPrefix (s : List Char) : throughLastEnd s <+: s := List.rdropWhile_prefix _ _

/-- What ends a line is kept, whatever comes after it. -/
theorem throughLastEnd_append {a : List Char} (h : EndsLine a) (b : List Char) :
    throughLastEnd (a ++ b) = a ++ throughLastEnd b := by
  induction b using List.reverseRecOn with
  | nil =>
      have hself : throughLastEnd a = a := by
        refine List.rdropWhile_eq_self_iff.mpr fun hne => ?_
        have hlast := h _ (List.getLast?_eq_some_getLast hne)
        rcases hlast with hlast | hlast <;> simp [hlast]
      rw [List.append_nil, hself]
      simp [throughLastEnd]
  | append_singleton b c ih =>
      rw [throughLastEnd, ← List.append_assoc, List.rdropWhile_concat, throughLastEnd, List.rdropWhile_concat]
      split
      · exact ih
      · rw [List.append_assoc]

/-- A text goes on after its complete lines with something that does not belong to the end of the last one. -/
theorem exists_completeLines (s : List Char) :
    ∃ after, s = completeLines s ++ after ∧ ∀ more, EndsBefore (completeLines s) (after ++ more) := by
  have hplain : ∀ (c : Char) after more, HasNoEnd (c :: after) → (c :: after ++ more).head? ≠ some '\n' := by
    intro c after more h
    simpa using (hasNoEnd_cons.mp h).1.1
  by_cases hreturn : s.getLast? = some '\r'
  · obtain ⟨init, rfl⟩ := List.getLast?_eq_some_iff.mp hreturn
    obtain ⟨after, hinit, hafter⟩ := exists_throughLastEnd init
    rw [completeLines_concat_cr]
    refine ⟨after ++ ['\r'], ?_, fun more => ⟨endsLine_throughLastEnd init, fun _ => ?_⟩⟩
    · rw [← List.append_assoc, ← hinit]
    · cases after with
      | nil => simp
      | cons c after => exact List.append_assoc .. ▸ hplain c after _ hafter
  · obtain ⟨after, hs, hafter⟩ := exists_throughLastEnd s
    rw [completeLines_of_getLast?_ne hreturn]
    refine ⟨after, hs, fun more => ⟨endsLine_throughLastEnd s, fun hlast => ?_⟩⟩
    cases after with
    | nil =>
        rw [List.append_nil] at hs
        exact absurd (hs ▸ hlast) hreturn
    | cons c after => exact hplain c after more hafter

/-- Whole lines of which the last one is over stand among the complete lines of a text. -/
theorem exists_completeLines_append {a b : List Char} (h : ∀ more, EndsBefore a (b ++ more)) :
    ∃ after, completeLines (a ++ b) = a ++ after ∧ EndsBefore a after := by
  have hb : EndsBefore a b := List.append_nil b ▸ h []
  by_cases hreturn : (a ++ b).getLast? = some '\r'
  · rcases List.eq_nil_or_concat b with rfl | ⟨init, c, rfl⟩
    · -- nothing comes after a CR, which could be half of a line end then
      rw [List.append_nil] at hreturn
      exact absurd rfl ((h ['\n']).seam hreturn)
    · obtain rfl : c = '\r' := by simpa [← List.append_assoc] using hreturn
      have hinit : throughLastEnd init <+: init.concat '\r' := by
        rw [List.concat_eq_append]
        exact (throughLastEnd_isPrefix init).trans (List.prefix_append _ _)
      refine ⟨throughLastEnd init, ?_, hb.of_prefix hinit⟩
      rw [List.concat_eq_append, ← List.append_assoc, completeLines_concat_cr, throughLastEnd_append hb.ends]
  · refine ⟨throughLastEnd b, ?_, hb.of_prefix (throughLastEnd_isPrefix b)⟩
    rw [completeLines_of_getLast?_ne hreturn, throughLastEnd_append hb.ends]

/-- The complete lines of a text are the first lines, and the first complete lines, of what goes on from there. -/
theorem isPrefix_lines_completeLines {s t : List Char} (h : s <+: t) :
    lines (completeLines s) <+: lines t ∧ lines (completeLines s) <+: lines (completeLines t) := by
  obtain ⟨more, rfl⟩ := h
  obtain ⟨after, hs, hends⟩ := exists_completeLines s
  have hall : s ++ more = completeLines s ++ (after ++ more) := by rw [← List.append_assoc, ← hs]
  constructor
  · rw [hall, lines_append_of_endsBefore (hends more)]
    exact List.prefix_append _ _
  · have hends' : ∀ further, EndsBefore (completeLines s) (after ++ more ++ further) := by
      intro further
      rw [List.append_assoc]
      exact hends _
    obtain ⟨rest, hrest, hbefore⟩ := exists_completeLines_append hends'
    rw [hall, hrest, lines_append_of_endsBefore hbefore]
    exact List.prefix_append _ _

end TransitionAudit.Text
