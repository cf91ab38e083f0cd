import TransitionAudit.Number.Numeral
import TransitionAudit.Proofs.Data.Split
import TransitionAudit.Text.Quoted

/-!
# Texts on one line

A text is split into lines at its line feeds. Texts that are put together from words, numerals and texts on one line
are on one line as well, and what stands in front of a text goes to its first line.
-/

namespace TransitionAudit.Text

/-- The stretches of a text between its line feeds. -/
def splitLines (t : Text) : List Text := t.splitOn '\n'

/-- Whether a text has no line feed. -/
def OneLine (t : Text) : Prop := .char '\n' ∉ t

instance : DecidablePred OneLine := fun t => inferInstanceAs (Decidable (.char '\n' ∉ t))

theorem lineFeed_infix_iff {t : Text} : [.char '\n'] <:+: t ↔ ¬ OneLine t := by
  rw [OneLine, not_not, List.singleton_infix_iff]

@[simp] theorem oneLine_nil : OneLine [] := by simp [OneLine]

@[simp] theorem oneLine_append {s t : Text} : OneLine (s ++ t) ↔ OneLine s ∧ OneLine t := by
  simp [OneLine]

@[simp] theorem oneLine_ofString {s : String} : OneLine (ofString s) ↔ '\n' ∉ s.toList := by
  simp [OneLine, ofString, ofChars]

@[simp] theorem oneLine_nat (n : Nat) : OneLine (Numeral.nat n) := by
  intro h
  obtain ⟨c, hc, heq⟩ := List.mem_map.mp h
  cases heq
  exact absurd (Nat.isDigit_of_mem_toDigits (by decide) (by decide) hc) (by decide)

@[simp] theorem oneLine_int (i : Int) : OneLine (Numeral.int i) := by
  cases i <;> simp [Numeral.int]

theorem not_mem_numberEscape (n : Nat) : '\n' ∉ numberEscape n := by
  have hdigit : ∀ m < 16, Nat.digitChar m ≠ '\n' := by decide
  have hhex : ∀ width n, '\n' ∉ hex width n := by
    intro width
    induction width with
    | zero => simp [hex]
    | succ width ih =>
        intro n
        have hlast := hdigit (n % 16) (Nat.mod_lt n (by decide))
        simp [hex, hexDigit, ih, Ne.symm hlast]
  unfold numberEscape
  split_ifs <;> simp [hhex]

theorem not_mem_escapePoint {q : Char} (hq : q ≠ '\n') (p : CodePoint) : '\n' ∉ escapePoint q p := by
  cases p with
  | surrogate n => exact not_mem_numberEscape _
  | char c =>
      rw [escapePoint, escape]
      by_cases hc : c = '\n'
      · rw [hc, if_neg (by simp [Ne.symm hq]), if_pos rfl]
        decide
      · have hother : '\n' ≠ c := Ne.symm hc
        split_ifs <;> simp [hother, not_mem_numberEscape]

/-- A text in quotes is on one line: its line feeds are written as escapes. -/
@[simp] theorem oneLine_quote (t : Text) : OneLine (quote t) := by
  have hquote : quoteFor t ≠ '\n' := by
    unfold quoteFor
    split <;> decide
  intro h
  obtain ⟨c, hc, heq⟩ := List.mem_map.mp h
  cases heq
  simp only [List.cons_append, List.mem_cons, List.mem_append, List.mem_flatMap, List.not_mem_nil, or_false] at hc
  rcases hc with hc | ⟨p, -, hc⟩ | hc
  · exact hquote hc.symm
  · exact not_mem_escapePoint hquote p hc
  · exact hquote hc.symm

theorem oneLine_intercalate {separator : Text} {ts : List Text} (hseparator : OneLine separator)
    (h : ∀ t ∈ ts, OneLine t) : OneLine (List.intercalate separator ts) := by
  intro hp
  rcases List.of_mem_intercalate hp with hp | ⟨t, ht, hp⟩
  · exact hseparator hp
  · exact h t ht hp

/-! ## Lines -/

theorem splitLines_of_oneLine {t : Text} (h : OneLine t) : splitLines t = [t] := List.splitOn_eq_singleton h

theorem flatMap_splitLines_of_oneLine {ts : List Text} (h : ∀ t ∈ ts, OneLine t) : ts.flatMap splitLines = ts := by
  induction ts with
  | nil => rfl
  | cons t ts ih =>
      obtain ⟨ht, hts⟩ := List.forall_mem_cons.mp h
      rw [List.flatMap_cons, splitLines_of_oneLine ht, ih hts, List.singleton_append]

theorem splitLines_intercalate {ts : List Text} (h : ts ≠ []) :
    splitLines (List.intercalate "\n" ts) = ts.flatMap splitLines :=
  List.splitOn_intercalate_flatMap h

theorem oneLine_of_mem_splitLines {t line : Text} (h : line ∈ t.splitLines) : OneLine line :=
  fun hmem => (List.of_mem_of_mem_splitOn h hmem).1 rfl

/-- The lines after the first one. -/
def moreLines (t : Text) : List Text := t.splitLines.tail

/-- What is on one line and stands in front of a text goes to its first line. -/
theorem splitLines_append {s : Text} (h : OneLine s) (t : Text) :
    ∃ first, splitLines (s ++ t) = (s ++ first) :: moreLines t := by
  obtain ⟨first, rest, hsplit⟩ := List.exists_cons_of_ne_nil (List.splitOn_ne_nil (.char '\n') t)
  refine ⟨first, ?_⟩
  rw [splitLines, List.splitOn_append_of_not_mem h, moreLines, splitLines, hsplit]
  rfl

/-- A line after the first one starts with something exactly if it stands behind a line feed. -/
theorem exists_prefix_mem_moreLines_iff {start t : Text} (h : OneLine start) :
    (∃ line ∈ t.moreLines, start <+: line) ↔ .char '\n' :: start <:+: t :=
  List.exists_prefix_mem_tail_splitOn_iff h

end TransitionAudit.Text
