import TransitionAudit.Text.Blank
import TransitionAudit.Text.Line
import Mathlib.Data.List.Basic
import Mathlib.Data.List.TakeWhile

/-!
# Lines and their ends

The lines of a text are the stretches between its line ends. What they hold does not change when texts that end
a line are put before others, not even where that makes one line end out of two.
-/

namespace TransitionAudit.Text

/-! ## Splitting -/

/-- Whether some characters end no line. -/
def HasNoEnd (line : List Char) : Prop := ∀ c ∈ line, c ≠ '\n' ∧ c ≠ '\r'

/-- Whether some characters end a line before the rest of a text. A CR before an LF is but half of a line end. -/
inductive IsEnd (rest : List Char) : List Char → Prop
  | lf : IsEnd rest ['\n']
  | crLf : IsEnd rest ['\r', '\n']
  | cr (alone : rest.head? ≠ some '\n') : IsEnd rest ['\r']

/-- Whether a text is made of lines, each of which has an end but for the last one, which may be without. -/
inductive SplitsInto : List Char → List (List Char) → Prop
  | nil : SplitsInto [] []
  | last {line : List Char} (plain : HasNoEnd line) (nonempty : line ≠ []) : SplitsInto line [line]
  | ended {line ending rest : List Char} {ls : List (List Char)} (plain : HasNoEnd line) (isEnd : IsEnd rest ending)
      (splits : SplitsInto rest ls) : SplitsInto (line ++ ending ++ rest) (line :: ls)

theorem hasNoEnd_nil : HasNoEnd [] := by simp [HasNoEnd]

theorem hasNoEnd_cons {c : Char} {line : List Char} :
    HasNoEnd (c :: line) ↔ (c ≠ '\n' ∧ c ≠ '\r') ∧ HasNoEnd line := List.forall_mem_cons

theorem lines_of_hasNoEnd {line : List Char} (h : HasNoEnd line) (hne : line ≠ []) : lines line = [line] := by
  induction line with
  | nil => exact absurd rfl hne
  | cons c line ih =>
      obtain ⟨⟨hline, hreturn⟩, hrest⟩ := hasNoEnd_cons.mp h
      have hlines : lines line = [] ∧ line = [] ∨ lines line = [line] := by
        by_cases hnil : line = []
        · exact Or.inl ⟨by rw [hnil, lines], hnil⟩
        · exact Or.inr (ih hrest hnil)
      rcases hlines with ⟨hlines, rfl⟩ | hlines <;> rw [lines, hlines] <;> simp_all

theorem lines_append {line ending rest : List Char} (h : HasNoEnd line) (hend : IsEnd rest ending) :
    lines (line ++ ending ++ rest) = line :: lines rest := by
  induction line with
  | nil =>
      cases hend with
      | lf => rw [List.nil_append, List.singleton_append, lines]
      | crLf => rfl
      | cr alone =>
          rw [List.nil_append, List.singleton_append, lines]
          rintro rest' rfl
          exact alone rfl
  | cons c line ih =>
      obtain ⟨⟨hline, hreturn⟩, hrest⟩ := hasNoEnd_cons.mp h
      rw [List.cons_append, List.cons_append, lines, ih hrest]
      all_goals simp_all

theorem SplitsInto.lines_eq {text : List Char} {ls : List (List Char)} (h : SplitsInto text ls) : lines text = ls := by
  induction h with
  | nil => rfl
  | last plain nonempty => exact lines_of_hasNoEnd plain nonempty
  | ended plain isEnd _ ih => rw [lines_append plain isEnd, ih]

theorem splitsInto_nil_iff {ls : List (List Char)} : SplitsInto [] ls ↔ ls = [] := by
  constructor
  · intro h
    rw [← h.lines_eq, lines]
  · rintro rfl
    exact .nil

/-- A character that ends no line goes to the first line. -/
theorem SplitsInto.cons {c : Char} {rest line : List Char} {ls : List (List Char)} (hc : c ≠ '\n' ∧ c ≠ '\r')
    (h : SplitsInto rest (line :: ls)) : SplitsInto (c :: rest) ((c :: line) :: ls) := by
  cases h with
  | last plain nonempty => exact .last (hasNoEnd_cons.mpr ⟨hc, plain⟩) (List.cons_ne_nil _ _)
  | ended plain isEnd splits => exact .ended (hasNoEnd_cons.mpr ⟨hc, plain⟩) isEnd splits

theorem splitsInto_lines (text : List Char) : SplitsInto text (lines text) := by
  induction text using lines.induct with
  | case1 => exact .nil
  | case2 rest ih => exact .ended hasNoEnd_nil .lf ih
  | case3 rest ih => exact .ended hasNoEnd_nil .crLf ih
  | case4 rest halone ih =>
      rw [lines]
      · refine .ended hasNoEnd_nil (.cr ?_) ih
        rw [ne_eq, List.head?_eq_some_iff]
        rintro ⟨rest', hrest⟩
        exact halone rest' hrest
      · exact halone
  | case5 c rest hline _ hreturn hnone ih =>
      rw [hnone] at ih
      cases ih
      rw [lines, hnone]
      · exact .last (hasNoEnd_cons.mpr ⟨⟨hline, hreturn⟩, hasNoEnd_nil⟩) (List.cons_ne_nil _ _)
      all_goals assumption
  | case6 c rest hline _ hreturn l ls hsome ih =>
      rw [hsome] at ih
      rw [lines, hsome]
      · exact ih.cons ⟨hline, hreturn⟩
      all_goals assumption

/-- The lines of a text are the only ones that it splits into. -/
theorem splitsInto_iff {text : List Char} {ls : List (List Char)} : SplitsInto text ls ↔ lines text = ls := by
  constructor
  · exact SplitsInto.lines_eq
  · rintro rfl
    exact splitsInto_lines text

/-! ## What lines hold -/

/-- Whether nothing but blank characters is on a line. -/
def IsBlankLine (line : List Char) : Prop := ∀ c ∈ line, isBlank c = true

instance (line : List Char) : Decidable (IsBlankLine line) :=
  inferInstanceAs (Decidable (∀ c ∈ line, isBlank c = true))

/-- The lines that are not blank. -/
def content (ls : List (List Char)) : List (List Char) := ls.filter fun line => ¬ IsBlankLine line

theorem isBlankLine_nil : IsBlankLine [] := by simp [IsBlankLine]

theorem trim_eq_nil_iff {line : List Char} : trim line = [] ↔ IsBlankLine line := by
  rw [trim, trimBy, List.reverse_eq_nil_iff, List.dropWhile_eq_nil_iff]
  constructor
  · intro h c hc
    rw [← List.takeWhile_append_dropWhile (p := isBlank) (l := line), List.mem_append] at hc
    rcases hc with hc | hc
    · exact List.mem_takeWhile_imp hc
    · exact h c (List.mem_reverse.mpr hc)
  · intro h c hc
    exact h c ((List.dropWhile_suffix _).mem (List.mem_reverse.mp hc))

theorem mem_content {line : List Char} {ls : List (List Char)} :
    line ∈ content ls ↔ line ∈ ls ∧ ¬ IsBlankLine line := by
  simp [content]

theorem content_cons_of_isBlankLine {line : List Char} {ls : List (List Char)} (h : IsBlankLine line) :
    content (line :: ls) = content ls := List.filter_cons_of_neg (by simpa using h)

theorem content_cons_of_not_isBlankLine {line : List Char} {ls : List (List Char)} (h : ¬ IsBlankLine line) :
    content (line :: ls) = line :: content ls := List.filter_cons_of_pos (by simpa using h)

/-- Whether lines are others with blank ones put between them. -/
inductive Padded : List (List Char) → List (List Char) → Prop
  | nil : Padded [] []
  | keep {ls ls' : List (List Char)} (line : List Char) (rest : Padded ls ls') : Padded (line :: ls) (line :: ls')
  | insert {ls ls' : List (List Char)} {line : List Char} (blank : IsBlankLine line) (rest : Padded ls ls') :
      Padded ls (line :: ls')

theorem Padded.content_eq {ls ls' : List (List Char)} (h : Padded ls ls') : content ls' = content ls := by
  induction h with
  | nil => rfl
  | keep line _ ih =>
      by_cases hline : IsBlankLine line
      · rw [content_cons_of_isBlankLine hline, content_cons_of_isBlankLine hline, ih]
      · rw [content_cons_of_not_isBlankLine hline, content_cons_of_not_isBlankLine hline, ih]
  | insert blank _ ih => rw [content_cons_of_isBlankLine blank, ih]

/-! ## Texts put together -/

/-- Whether a text is empty or ends with a line end. -/
def EndsLine (text : List Char) : Prop := ∀ c ∈ text.getLast?, c = '\n' ∨ c = '\r'

theorem IsEnd.append {rest ending : List Char} (h : IsEnd rest ending) (hne : rest ≠ []) (b : List Char) :
    IsEnd (rest ++ b) ending := by
  cases h with
  | lf => exact .lf
  | crLf => exact .crLf
  | cr alone => exact .cr (by rwa [List.head?_append_of_ne_nil _ hne])

/-- What ends a line in last place ends it before another text too, unless the two are halves of a line end. -/
theorem IsEnd.before_or {ending : List Char} (h : IsEnd [] ending) (b : List Char) :
    IsEnd b ending ∨ ending = ['\r'] ∧ ∃ b', b = '\n' :: b' := by
  cases h with
  | lf => exact Or.inl .lf
  | crLf => exact Or.inl .crLf
  | cr _ =>
      by_cases hb : b.head? = some '\n'
      · exact Or.inr ⟨rfl, List.head?_eq_some_iff.mp hb⟩
      · exact Or.inl (.cr hb)

/-- A text that ends a line and another one split into the lines of the two, unless a CR and an LF meet. -/
theorem SplitsInto.append {a b : List Char} {ls ls' : List (List Char)} (ha : SplitsInto a ls) (hends : EndsLine a)
    (hb : SplitsInto b ls') :
    SplitsInto (a ++ b) (ls ++ ls') ∨ ∃ rest, ls' = [] :: rest ∧ SplitsInto (a ++ b) (ls ++ rest) := by
  induction ha with
  | nil => exact Or.inl hb
  | @last line plain nonempty =>
      have hlast : line.getLast nonempty ∈ line.getLast? := List.getLast?_eq_some_getLast nonempty
      obtain ⟨hline, hreturn⟩ := plain _ (List.getLast_mem nonempty)
      exact absurd (hends _ hlast) (by simp [hline, hreturn])
  | @ended line ending rest ls plain isEnd splits ih =>
      by_cases hrest : rest = []
      · -- the seam of the two texts is behind this line end
        subst hrest
        obtain rfl := splitsInto_nil_iff.mp splits
        rw [List.append_nil]
        rcases isEnd.before_or b with hbefore | ⟨rfl, b', rfl⟩
        · exact Or.inl (.ended plain hbefore hb)
        · refine Or.inr ⟨lines b', ?_, ?_⟩
          · rw [← hb.lines_eq, lines]
          · have hsplits : SplitsInto (line ++ ['\r', '\n'] ++ b') (line :: lines b') :=
              .ended plain .crLf (splitsInto_lines b')
            simpa using hsplits
      · have hends' : EndsLine rest := by
          intro c hc
          refine hends c ?_
          rwa [List.getLast?_append_of_ne_nil _ hrest]
        rw [List.append_assoc]
        rcases ih hends' with hsplits | ⟨rest', rfl, hsplits⟩
        · exact Or.inl (.ended plain (isEnd.append hrest b) hsplits)
        · exact Or.inr ⟨rest', rfl, .ended plain (isEnd.append hrest b) hsplits⟩

/-- Texts of which the first one ends a line have the content of both when they are put together. -/
theorem SplitsInto.content_append {a b : List Char} {as bs ls : List (List Char)} (ha : SplitsInto a as)
    (hends : EndsLine a) (hb : SplitsInto b bs) (h : SplitsInto (a ++ b) ls) :
    content ls = content as ++ content bs := by
  rcases ha.append hends hb with hsplits | ⟨rest, rfl, hsplits⟩
  · rw [← h.lines_eq, hsplits.lines_eq]
    exact List.filter_append ..
  · rw [← h.lines_eq, hsplits.lines_eq, content_cons_of_isBlankLine isBlankLine_nil]
    exact List.filter_append ..

end TransitionAudit.Text
