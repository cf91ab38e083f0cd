import TransitionAudit.Audit.Markdown
import TransitionAudit.Proofs.Audit.Detail
import TransitionAudit.Proofs.Audit.Summary
import TransitionAudit.Proofs.Text.OneLine
import TransitionAudit.Rule.Document
import TransitionAudit.Trace.Row
import Mathlib

/-!
# The layout of Markdown reports

What a reader finds who goes through a report line by line: the rows of the tables under the heading of the results,
and the bullets under the heading of the failures. Names are put into a report as they are, so its layout is that of
the findings only as long as no name breaks a line where it should not, or a row.
-/

namespace TransitionAudit

/-! ## Findings of rules -/

theorem ErrorCode.oneLine_text (c : ErrorCode) : c.text.OneLine := by
  cases c <;> simp [ErrorCode.text]

/-- What every finding of a rule is like, whatever the names in it: only the rule and the detail can hold line feeds,
and messages are parts of the detail. -/
structure Finding.Regular (f : Finding) : Prop where
  type : f.transitionType.OneLine
  code : ∀ code ∈ f.errorCode, code.OneLine
  passed : f.passed = true → f.detail = none
  messages : ∀ v ∈ f.violations, ∃ detail ∈ f.detail, v.message <:+: detail

theorem Finding.of_regular (t : Transition) (r : Rule) (answer : Except EvaluationFault (List Violation)) :
    (Finding.of t r answer).Regular where
  type := (Finding.of_header t r answer).2.1 ▸ t.type.oneLine_text
  code := by
    rcases answer with fault | _ | ⟨v, rest⟩
    · rintro _ ⟨⟩
      exact fault.code.oneLine_text
    · rintro _ ⟨⟩
    · rintro _ ⟨⟩
  passed := by
    rcases answer with fault | _ | ⟨v, rest⟩
    · rintro ⟨⟩
    · exact fun _ => rfl
    · rintro ⟨⟩
  messages := by
    rcases answer with fault | _ | ⟨v, rest⟩
    · rintro _ ⟨⟩
    · rintro _ ⟨⟩
    · intro w hw
      exact ⟨_, rfl, List.infix_intercalate_of_mem (List.mem_map_of_mem hw)⟩

namespace Report

/-! ## Going through a report -/

def resultsHeading : Text := "### Results"

def failuresHeading : Text := "### Failures"

/-- The lines at the top of a table. -/
def tableHead : List Text := ["| Rule | Status |", "|---|---|"]

def bulletStart : Text := "- Transition #"

/-- The lines below the first one that is a heading. -/
def below (heading : Text) (ls : List Text) : List Text := (ls.dropWhile (· ≠ heading)).tail

def isRow (line : Text) : Bool := line.head? = some (.char '|') && line ∉ tableHead

def isBullet (line : Text) : Bool := bulletStart.isPrefixOf line

/-- The rows of tables below the heading of the results and above that of the failures. -/
def rowsIn (text : Text) : List Text :=
  ((below resultsHeading text.splitLines).takeWhile (· ≠ failuresHeading)).filter isRow

/-- The bullets below the heading of the failures. -/
def bulletsIn (text : Text) : List Text :=
  (below failuresHeading (below resultsHeading text.splitLines)).filter isBullet

/-- What stands between the bars of a row, and in front of the first one and behind the last one. -/
def cells (row : Text) : List Text := (row.splitOn (.char '|')).map Text.strip

def quotedRule (f : Finding) : Text := "`" ++ f.ruleId ++ "`"

/-- What a bullet says of the transition and the rule. -/
def bulletHead (f : Finding) : Text := bulletStart ++ Numeral.int f.transitionId ++ " `" ++ f.ruleId ++ "`"

/-- Whether the rows in a report are one for each finding, in the order of the groups, with two cells: the rule in
quotes and the status. -/
def KeepsRows (r : Report) (title : Text) : Prop :=
  (rowsIn (r.markdown title)).map cells =
    (r.byTransition.flatMap (·.2)).map fun f => [[], quotedRule f, f.status, []]

/-- Whether the bullets in a report are one for each failed finding, in their order. -/
def KeepsBullets (r : Report) (title : Text) : Prop :=
  List.Forall₂ (fun line f => bulletHead f <+: line) (bulletsIn (r.markdown title)) r.failures

theorem below_append {heading : Text} {before after : List Text} (h : ∀ l ∈ before, l ≠ heading) :
    below heading (before ++ heading :: after) = after := by
  rw [below, List.dropWhile_append_of_pos (by simpa using h)]
  simp

theorem below_of_forall_ne {heading : Text} {ls : List Text} (h : ∀ l ∈ ls, l ≠ heading) : below heading ls = [] := by
  rw [below, List.dropWhile_eq_nil_iff.mpr (by simpa using h)]
  rfl

/-! ## Above the results -/

theorem oneLine_summaryLines (s : Summary) : ∀ l ∈ summaryLines s, l.OneLine := by
  unfold summaryLines
  cases s.allPassed <;> by_cases herrors : s.errors = 0 <;> simp [herrors]

def titleStart : Text := "## flickercheck Report: "

/-- The lines between the title and the heading of the results. -/
def preamble (s : Summary) : List Text := [] :: summaryLines s ++ [[]]

theorem markdownLines_eq (r : Report) (title : Text) : r.markdownLines title =
    (titleStart ++ title) :: preamble r.summary ++
      resultsHeading :: [] :: (resultLines r.byTransition ++ failureLines r.failures) := by
  simp [markdownLines, titleStart, preamble, resultsHeading, Text.ofString, Text.ofChars]

theorem preamble_ne {s : Summary} : ∀ l ∈ preamble s, l ≠ resultsHeading := by
  unfold preamble summaryLines
  cases s.allPassed <;> by_cases herrors : s.errors = 0 <;>
    simp [herrors, resultsHeading, Text.ofString, Text.ofChars]

theorem oneLine_preamble {s : Summary} : ∀ l ∈ preamble s, l.OneLine := by
  simp only [preamble, List.cons_append, List.forall_mem_cons, List.forall_mem_append]
  exact ⟨by simp, oneLine_summaryLines _, by simp⟩

/-- Below the heading of the results there are only lines of tables and of failures, if the title has no such heading
on a line of its own. -/
theorem below_results {r : Report} {title : Text} (htitle : resultsHeading ∉ title.moreLines) :
    below resultsHeading (r.markdown title).splitLines = [] ::
      ((resultLines r.byTransition).flatMap Text.splitLines ++ (failureLines r.failures).flatMap Text.splitLines) := by
  have hne : r.markdownLines title ≠ [] := by simp [markdownLines]
  have hheading : resultsHeading.OneLine := by simp [resultsHeading]
  obtain ⟨first, hfirst⟩ := Text.splitLines_append (s := titleStart) (by simp [titleStart]) title
  have habove : ∀ l ∈ (titleStart ++ first) :: title.moreLines ++ preamble r.summary, l ≠ resultsHeading := by
    simp only [List.cons_append, List.forall_mem_cons, List.forall_mem_append]
    refine ⟨by simp [titleStart, resultsHeading, Text.ofString, Text.ofChars], ?_, preamble_ne⟩
    rintro l hl rfl
    exact htitle hl
  rw [markdown, Text.splitLines_intercalate hne, markdownLines_eq, List.flatMap_append, List.flatMap_cons, hfirst,
    Text.flatMap_splitLines_of_oneLine oneLine_preamble, List.flatMap_cons, Text.splitLines_of_oneLine hheading,
    List.singleton_append, below_append habove, List.flatMap_cons, List.flatMap_append]
  rfl

/-! ## The results -/

/-- Whether a name neither breaks a line nor a row. -/
def IsPlain (name : Text) : Prop := name.OneLine ∧ .char '|' ∉ name

section
variable {id : Int} {fs : List Finding}

theorem filter_isRow_tableLines : (tableLines id fs).filter isRow = fs.map tableRow := by
  have hrow : ∀ f : Finding, isRow (tableRow f) = true := by
    intro f
    simp [isRow, tableRow, tableHead, Text.ofString, Text.ofChars]
  have hrows : (fs.map tableRow).filter isRow = fs.map tableRow :=
    List.filter_eq_self.mpr (List.forall_mem_map.mpr fun f _ => hrow f)
  rw [tableLines, List.cons_append, List.cons_append, List.cons_append, List.cons_append, List.filter_cons_of_neg,
    List.filter_cons_of_neg, List.filter_cons_of_neg, List.filter_cons_of_neg, List.filter_append, hrows]
  all_goals simp [isRow, tableHead, Text.ofString, Text.ofChars]

theorem tableLines_ne : ∀ l ∈ tableLines id fs, l ≠ failuresHeading := by
  simp only [tableLines, List.cons_append, List.forall_mem_cons, List.forall_mem_append, List.forall_mem_map]
  simp [failuresHeading, tableRow, Text.ofString, Text.ofChars]

theorem oneLine_tableLines (htype : (typeOf fs).OneLine) (hrules : ∀ f ∈ fs, f.ruleId.OneLine) :
    ∀ l ∈ tableLines id fs, l.OneLine := by
  simp only [tableLines, List.cons_append, List.forall_mem_cons, List.forall_mem_append, List.forall_mem_map]
  have hrows : ∀ f ∈ fs, (tableRow f).OneLine := by
    intro f hf
    cases hp : f.passed <;> simp [tableRow, hrules f hf, Finding.status, Finding.verdict, hp]
  simpa [htype] using hrows

end

section
variable {groups : List (Int × List Finding)}

theorem filter_isRow_resultLines : (resultLines groups).filter isRow = (groups.flatMap (·.2)).map tableRow := by
  unfold resultLines
  cases groups with
  | nil => simp [isRow, Text.ofString, Text.ofChars]
  | cons g groups => simp [List.filter_flatMap, filter_isRow_tableLines, List.map_flatMap]

theorem resultLines_ne : ∀ l ∈ resultLines groups, l ≠ failuresHeading := by
  unfold resultLines
  cases groups with
  | nil => simp [failuresHeading, Text.ofString, Text.ofChars]
  | cons g groups =>
      intro l hl
      obtain ⟨g, -, hl⟩ := List.mem_flatMap.mp hl
      exact tableLines_ne l hl

theorem blank_resultLines_ne : ∀ l ∈ [] :: resultLines groups, l ≠ failuresHeading := by
  rw [List.forall_mem_cons]
  exact ⟨by simp [failuresHeading, Text.ofString, Text.ofChars], resultLines_ne⟩

theorem oneLine_resultLines (h : ∀ g ∈ groups, (typeOf g.2).OneLine ∧ ∀ f ∈ g.2, f.ruleId.OneLine) :
    ∀ l ∈ resultLines groups, l.OneLine := by
  unfold resultLines
  cases groups with
  | nil => simp
  | cons g groups =>
      intro l hl
      obtain ⟨g, hg, hl⟩ := List.mem_flatMap.mp hl
      exact oneLine_tableLines (h g hg).1 (h g hg).2 l hl

end

/-! ## The failures -/

theorem flatMap_failureLines {fs : List Finding} (h : fs ≠ []) : (failureLines fs).flatMap Text.splitLines =
    failuresHeading :: ([[]] ++ (fs.flatMap fun f => (failureBullet f :: momentLines f).flatMap Text.splitLines) ++
      [[]]) := by
  have hempty : fs.isEmpty = false := by simpa using h
  have hheading : ([failuresHeading, []] : List Text).flatMap Text.splitLines = [failuresHeading, []] :=
    Text.flatMap_splitLines_of_oneLine (by simp [failuresHeading])
  have hblank : ([[]] : List Text).flatMap Text.splitLines = [[]] := rfl
  have hlines : failureLines fs =
      [failuresHeading, []] ++ (fs.flatMap fun f => failureBullet f :: momentLines f) ++ [[]] := by
    rw [failureLines, hempty]
    rfl
  rw [hlines, List.flatMap_append, List.flatMap_append, hheading, hblank, List.flatMap_assoc]
  rfl

theorem takeWhile_failureLines (fs : List Finding) :
    ((failureLines fs).flatMap Text.splitLines).takeWhile (· ≠ failuresHeading) = [] := by
  by_cases h : fs = []
  · rw [h]
    rfl
  · rw [flatMap_failureLines h, List.takeWhile_cons_of_neg (by simp)]

/-! ## Rows -/

section
variable {f : Finding}

def spaced (cell : Text) : Text := " " ++ cell ++ " "

theorem strip_spaced_quotedRule : (spaced (quotedRule f)).strip = quotedRule f := by
  have hquote : Text.isBlank (CodePoint.shown (.char '`')) = false := by decide
  have hspace : Text.isBlank (CodePoint.shown (.char ' ')) = true := by decide
  simp [spaced, quotedRule, Text.strip, Text.trimBy, Text.ofString, Text.ofChars, hquote, hspace]

theorem strip_spaced_status : (spaced f.status).strip = f.status := by
  unfold Finding.status
  cases f.passed <;> decide

theorem tableRow_eq : tableRow f =
    [] ++ .char '|' :: (spaced (quotedRule f) ++ .char '|' :: (spaced f.status ++ .char '|' :: [])) := by
  simp [tableRow, spaced, quotedRule, Text.ofString, Text.ofChars]

theorem cells_tableRow (h : IsPlain f.ruleId) : cells (tableRow f) = [[], quotedRule f, f.status, []] := by
  have hrule : CodePoint.char '|' ∉ spaced (quotedRule f) := by
    simp [spaced, quotedRule, Text.ofString, Text.ofChars, h.2]
  have hstatus : CodePoint.char '|' ∉ spaced f.status := by
    unfold Finding.status
    cases f.passed <;> decide
  rw [cells, tableRow_eq, List.splitOn_append_cons_self_of_not_mem (by simp),
    List.splitOn_append_cons_self_of_not_mem hrule, List.splitOn_append_cons_self_of_not_mem hstatus, List.splitOn_nil]
  simp only [List.map_cons, List.map_nil, strip_spaced_quotedRule, strip_spaced_status]
  rfl

end

theorem below_subset {heading : Text} {ls : List Text} : below heading ls ⊆ ls :=
  List.Subset.trans (List.tail_subset _) (List.dropWhile_subset _)

theorem mem_splitLines_of_mem_rowsIn {text row : Text} (h : row ∈ rowsIn text) : row ∈ text.splitLines :=
  below_subset ((List.takeWhile_subset _) (List.mem_filter.mp h).1)

theorem mem_of_mem_strip {t : Text} {p : CodePoint} (h : p ∈ t.strip) : p ∈ t := by
  rw [Text.strip, Text.trimBy, List.mem_reverse] at h
  have h' := List.mem_reverse.mp ((List.dropWhile_subset _) h)
  exact (List.dropWhile_subset _) h'

/-- What stands in a cell of a row neither breaks a line nor a row. -/
theorem isPlain_of_mem_cells {text row cell : Text} (hrow : row ∈ rowsIn text) (hcell : cell ∈ cells row) :
    IsPlain cell := by
  obtain ⟨piece, hpiece, rfl⟩ := List.mem_map.mp hcell
  constructor
  · intro hmem
    have hline := Text.oneLine_of_mem_splitLines (mem_splitLines_of_mem_rowsIn hrow)
    exact hline (List.of_mem_of_mem_splitOn hpiece (mem_of_mem_strip hmem)).2
  · intro hmem
    exact (List.of_mem_of_mem_splitOn hpiece (mem_of_mem_strip hmem)).1 rfl

section
variable {r : Report} {title : Text}

theorem mem_byTransition_iff {f : Finding} : f ∈ r.byTransition.flatMap (·.2) ↔ f ∈ r.findings :=
  Finding.divides_groupBy.perm.mem_iff

theorem isPlain_of_keepsRows (h : r.KeepsRows title) : ∀ f ∈ r.findings, IsPlain f.ruleId := by
  intro f hf
  have hcells : [[], quotedRule f, f.status, []] ∈ (rowsIn (r.markdown title)).map cells :=
    h ▸ List.mem_map_of_mem (mem_byTransition_iff.mpr hf)
  -- the name of the rule stands in a cell, and no cell holds a bar or a line feed
  obtain ⟨row, hrow, heq⟩ := List.mem_map.mp hcells
  have hplain : IsPlain (quotedRule f) := isPlain_of_mem_cells hrow (by simp [heq])
  have hsub : ∀ p ∈ f.ruleId, p ∈ quotedRule f := fun p hp => by simp [quotedRule, hp]
  exact ⟨fun hmem => hplain.1 (hsub _ hmem), fun hmem => hplain.2 (hsub _ hmem)⟩

/-- If no name of a rule breaks a line, the lines of the results are put into a report as they are. -/
theorem below_results_of_oneLine (htitle : resultsHeading ∉ title.moreLines) (hregular : ∀ f ∈ r.findings, f.Regular)
    (hplain : ∀ f ∈ r.findings, f.ruleId.OneLine) :
    below resultsHeading (r.markdown title).splitLines =
      ([] :: resultLines r.byTransition) ++ (failureLines r.failures).flatMap Text.splitLines := by
  have hlines : ∀ l ∈ resultLines r.byTransition, l.OneLine := by
    refine oneLine_resultLines fun g hg => ?_
    have hmem : ∀ f ∈ g.2, f ∈ r.findings := fun f hf => Finding.mem_of_mem_groupBy hg hf
    refine ⟨?_, fun f hf => hplain f (hmem f hf)⟩
    cases hfs : g.2 with
    | nil => simp [typeOf]
    | cons f fs => exact (hregular f (hmem f (by simp [hfs]))).type
  rw [below_results htitle, Text.flatMap_splitLines_of_oneLine hlines, List.cons_append]

theorem rowsIn_markdown (htitle : resultsHeading ∉ title.moreLines) (hregular : ∀ f ∈ r.findings, f.Regular)
    (hplain : ∀ f ∈ r.findings, f.ruleId.OneLine) :
    rowsIn (r.markdown title) = (r.byTransition.flatMap (·.2)).map tableRow := by
  rw [rowsIn, below_results_of_oneLine htitle hregular hplain,
    List.takeWhile_append_of_pos (by simpa using blank_resultLines_ne), takeWhile_failureLines, List.append_nil,
    List.filter_cons_of_neg (by simp [isRow]), filter_isRow_resultLines]

theorem keepsRows_iff (htitle : resultsHeading ∉ title.moreLines) (hregular : ∀ f ∈ r.findings, f.Regular) :
    r.KeepsRows title ↔ ∀ f ∈ r.findings, IsPlain f.ruleId := by
  refine ⟨isPlain_of_keepsRows, fun hplain => ?_⟩
  rw [KeepsRows, rowsIn_markdown htitle hregular fun f hf => (hplain f hf).1, List.map_map]
  exact List.map_congr_left fun f hf => cells_tableRow (hplain f (mem_byTransition_iff.mp hf))

end

/-! ## Bullets -/

section
variable {f : Finding}

/-- Whether a text goes on with a bullet on one of its lines after the first one. -/
def ForgesBullet (t : Text) : Prop := .char '\n' :: bulletStart <:+: t

theorem not_forgesBullet_of_oneLine {t : Text} (h : t.OneLine) : ¬ ForgesBullet t :=
  fun hforges => h (hforges.subset List.mem_cons_self)

theorem filter_isBullet_moreLines_eq_nil_iff {t : Text} : t.moreLines.filter isBullet = [] ↔ ¬ ForgesBullet t := by
  have hstart : bulletStart.OneLine := by simp [bulletStart]
  rw [ForgesBullet, ← Text.exists_prefix_mem_moreLines_iff hstart, List.filter_eq_nil_iff]
  simp [isBullet]

theorem failureBullet_eq (hrule : f.ruleId.OneLine) (hregular : f.Regular) :
    ∃ start : Text, start.OneLine ∧ bulletHead f <+: start ∧ failureBullet f = start ++ f.detail.getD "None" := by
  have hhead : (bulletHead f).OneLine := by simp [bulletHead, bulletStart, hrule]
  obtain ⟨code, hcode, heq⟩ : ∃ code : Text, code.OneLine ∧
      failureBullet f = bulletHead f ++ code ++ ": " ++ f.detail.getD "None" := by
    unfold failureBullet
    split
    · exact ⟨"", by simp, rfl⟩
    · exact ⟨"", by simp, rfl⟩
    · rename_i code _ hsome
      exact ⟨" [" ++ code ++ "]", by simp [hregular.code code hsome], rfl⟩
  exact ⟨_, by simp [hhead, hcode], (List.prefix_append _ _).trans (List.prefix_append _ _), heq⟩

theorem splitLines_failureBullet (hrule : f.ruleId.OneLine) (hregular : f.Regular) :
    ∃ line, bulletHead f <+: line ∧ (failureBullet f).splitLines = line :: (f.detail.getD "None").moreLines := by
  obtain ⟨start, hstart, hhead, heq⟩ := failureBullet_eq hrule hregular
  obtain ⟨first, hsplit⟩ := Text.splitLines_append hstart (f.detail.getD "None")
  exact ⟨start ++ first, hhead.trans (List.prefix_append _ _), heq ▸ hsplit⟩

theorem filter_isBullet_momentLines (hregular : f.Regular) (h : ∀ d ∈ f.detail, ¬ ForgesBullet d) :
    ((momentLines f).flatMap Text.splitLines).filter isBullet = [] := by
  rw [List.filter_flatMap, List.flatMap_eq_nil_iff]
  intro l hl
  obtain ⟨v, hv, hline⟩ := List.mem_filterMap.mp hl
  obtain ⟨m, -, rfl⟩ := Option.map_eq_some_iff.mp hline
  have hstart : (("  - at " : Text) ++ m.text ++ ": ").OneLine := by simp [m.oneLine_text]
  obtain ⟨first, hsplit⟩ := Text.splitLines_append hstart v.message
  obtain ⟨d, hd, hinfix⟩ := hregular.messages v hv
  rw [hsplit, List.filter_cons_of_neg (by simp [isBullet, bulletStart, Text.ofString, Text.ofChars]),
    filter_isBullet_moreLines_eq_nil_iff]
  exact fun hforges => h d hd (hforges.trans hinfix)

/-- The lines of a failure start with its bullet, and hold no other one exactly if the detail does not forge one. -/
theorem filter_isBullet_failure (hrule : f.ruleId.OneLine) (hregular : f.Regular) :
    ∃ line others, ((failureBullet f :: momentLines f).flatMap Text.splitLines).filter isBullet = line :: others ∧
      bulletHead f <+: line ∧ (others = [] ↔ ∀ d ∈ f.detail, ¬ ForgesBullet d) := by
  obtain ⟨line, hhead, hsplit⟩ := splitLines_failureBullet hrule hregular
  have hline : isBullet line = true := by
    have hstart : bulletStart <+: bulletHead f := by simp [bulletHead]
    simpa [isBullet] using hstart.trans hhead
  -- what the detail does not forge its messages cannot forge either, being parts of it
  have hdetail : (f.detail.getD "None").moreLines.filter isBullet = [] ↔ ∀ d ∈ f.detail, ¬ ForgesBullet d := by
    rw [filter_isBullet_moreLines_eq_nil_iff]
    cases f.detail with
    | none => simp [not_forgesBullet_of_oneLine]
    | some d => simp
  refine ⟨line, (f.detail.getD "None").moreLines.filter isBullet ++
    ((momentLines f).flatMap Text.splitLines).filter isBullet, ?_, hhead, ?_⟩
  · rw [List.flatMap_cons, hsplit, List.cons_append, List.filter_cons_of_pos hline, List.filter_append]
  · rw [List.append_eq_nil_iff, hdetail, and_iff_left_iff_imp]
    exact filter_isBullet_momentLines hregular

end

section
variable {r : Report} {title : Text}

theorem bulletsIn_markdown (htitle : resultsHeading ∉ title.moreLines) (hregular : ∀ f ∈ r.findings, f.Regular)
    (hplain : ∀ f ∈ r.findings, f.ruleId.OneLine) :
    bulletsIn (r.markdown title) = r.failures.flatMap fun f =>
      ((failureBullet f :: momentLines f).flatMap Text.splitLines).filter isBullet := by
  rw [bulletsIn, below_results_of_oneLine htitle hregular hplain]
  by_cases h : r.failures = []
  · have hnone : (failureLines []).flatMap Text.splitLines = [] := rfl
    rw [h, hnone, List.append_nil, below_of_forall_ne blank_resultLines_ne]
    rfl
  · have hblank : ([[]] : List Text).filter isBullet = [] := rfl
    rw [flatMap_failureLines h, below_append blank_resultLines_ne, List.filter_append, List.filter_append, hblank,
      List.nil_append, List.append_nil, List.filter_flatMap]

theorem keepsBullets_iff (htitle : resultsHeading ∉ title.moreLines) (hregular : ∀ f ∈ r.findings, f.Regular)
    (hplain : ∀ f ∈ r.findings, f.ruleId.OneLine) :
    r.KeepsBullets title ↔ ∀ f ∈ r.findings, ∀ d ∈ f.detail, ¬ ForgesBullet d := by
  have hmem : ∀ f ∈ r.failures, f ∈ r.findings := fun f hf => (List.mem_filter.mp hf).1
  rw [KeepsBullets, bulletsIn_markdown htitle hregular hplain, List.forall₂_flatMap_iff fun f hf =>
    filter_isBullet_failure (hplain f (hmem f hf)) (hregular f (hmem f hf))]
  refine ⟨fun h f hf d hd => ?_, fun h f hf => h f (hmem f hf)⟩
  -- findings that passed have no detail, and no bullet
  cases hpassed : f.passed with
  | true => simp [(hregular f hf).passed hpassed] at hd
  | false => exact h f (List.mem_filter.mpr ⟨hf, by simp [hpassed]⟩) d hd

end

/-! ## Reports of runs -/

theorem regular_of_audit {table : RuleTable} {windows : WindowTrace} {layers : LayerTrace} {log : TransitionLog}
    {workers : Option Nat} {turns : List Nat} {findings : List Finding}
    (h : (audit table windows layers log workers turns).outcome = .ok findings) : ∀ f ∈ findings, f.Regular := by
  intro f hf
  obtain ⟨⟨t, r⟩, -, w, l, -, rfl⟩ := exists_isOf_of_mem h hf
  exact Finding.of_regular t r _

theorem isForeign_lineFeed : Text.IsForeign [.char '\n'] := .of_tails (by decide) (by decide)

theorem isForeign_bullet : Text.IsForeign (.char '\n' :: bulletStart) := .of_tails (by decide) (by decide)

/-- The report of a run has one row with two cells for each finding exactly if no rule is called by a name that breaks
a line or a row. It has, besides, one bullet for each failed finding exactly if no detail goes on with a bullet on a
line of its own. If the rules are about components that documents can name, a detail breaks a line, or forges a
bullet, only if the name of a window of its transition does. So the names of windows can forge bullets, but not
rows. -/
theorem layout_of_audit {table : RuleTable} {windows : WindowTrace} {layers : LayerTrace} {log : TransitionLog}
    {workers : Option Nat} {turns : List Nat} {findings : List Finding} {title : Text}
    (h : (audit table windows layers log workers turns).outcome = .ok findings)
    (htitle : resultsHeading ∉ title.moreLines) :
    (KeepsRows ⟨findings⟩ title ↔ ∀ f ∈ findings, IsPlain f.ruleId) ∧
      (KeepsRows ⟨findings⟩ title ∧ KeepsBullets ⟨findings⟩ title ↔
        (∀ f ∈ findings, IsPlain f.ruleId) ∧ ∀ f ∈ findings, ∀ d ∈ f.detail, ¬ ForgesBullet d) ∧
      ((∀ run ∈ table.plan log, ∀ c ∈ run.2.component, c ∈ Component.known) → ∀ f ∈ findings,
        ∃ t ∈ log.complete, t.id = f.transitionId ∧ ∀ d ∈ f.detail,
          (¬ d.OneLine → ∃ c ∈ t.changes, ¬ c.window.OneLine) ∧
          (ForgesBullet d → ∃ c ∈ t.changes, ForgesBullet c.window)) := by
  have hregular := regular_of_audit h
  have hrows := keepsRows_iff (r := ⟨findings⟩) htitle hregular
  refine ⟨hrows, ?_, fun hknown f hf => ?_⟩
  · rw [hrows]
    exact and_congr_right fun hplain => keepsBullets_iff htitle hregular fun f hf => (hplain f hf).1
  · obtain ⟨t, ht, hid, hwindow⟩ := infix_window_of_audit h hknown f hf
    refine ⟨t, ht, hid, fun d hd => ⟨fun hbreak => ?_, hwindow _ isForeign_bullet d hd⟩⟩
    obtain ⟨c, hc, hinfix⟩ := hwindow _ isForeign_lineFeed d hd (Text.lineFeed_infix_iff.mpr hbreak)
    exact ⟨c, hc, Text.lineFeed_infix_iff.mp hinfix⟩

theorem layout_of_audit_emptyLaunch :
    (audit .builtIn Trace.empty launchLayers (.single emptyLaunch) none).outcome = .ok emptyLaunchFindings ∧
      resultsHeading ∉ defaultTitle.moreLines ∧ KeepsRows ⟨emptyLaunchFindings⟩ defaultTitle ∧
      KeepsBullets ⟨emptyLaunchFindings⟩ defaultTitle := by
  have houtcome : (audit .builtIn Trace.empty launchLayers (.single emptyLaunch) none).outcome =
      .ok emptyLaunchFindings := by rfl
  have htitle : resultsHeading ∉ defaultTitle.moreLines := by decide
  have hplain : ∀ f ∈ emptyLaunchFindings, IsPlain f.ruleId := by
    simp [emptyLaunchFindings, IsPlain, Text.ofString, Text.ofChars, Text.OneLine]
  have hdetail : ∀ f ∈ emptyLaunchFindings, ∀ d ∈ f.detail, ¬ ForgesBullet d := by
    simp [emptyLaunchFindings, not_forgesBullet_of_oneLine, Transition.oneLine_text]
  exact ⟨houtcome, htitle, (layout_of_audit houtcome htitle).2.1.mpr ⟨hplain, hdetail⟩⟩

/-- Rules of which one has a bar in its name. -/
def barredRules : Entries :=
  [(.text "transitions", .map [(.text "ALL", .list
    [.map [(.text "check", .scalar (.text "wm_trace_not_empty")), (.text "name", .scalar (.text "a|b"))]])])]

/-- A window with a bullet in its name. -/
def forgingWindow : Text := "b\n- Transition #2 `c`: d"

/-- A transition that opens two windows, of which one has a bullet in its name. -/
def forging : Transition :=
  ⟨1, { elapsed := 1 }, { elapsed := 9 }, .single .open, [⟨"a/.B", .open⟩, ⟨forgingWindow, .open⟩], false⟩

def forgingRow : Json :=
  .obj [("id", .int 1), ("type", .str "OPEN"), ("start", .int 1), ("end", .int 9),
    ("changes", .arr
      [.obj [("window_name", .str "a/.B"), ("transit_mode", .str "OPEN")],
       .obj [("window_name", .str forgingWindow), ("transit_mode", .str "OPEN")]])]

def forgingFault : ResolutionFault := .ambiguous .opening forging ["a/.B", forgingWindow]

def forgingFindings : List Finding :=
  [⟨1, "OPEN", "wm_trace_not_empty", true, none, none, []⟩,
   ⟨1, "OPEN", "layers_trace_not_empty", true, none, none, []⟩,
   ⟨1, "OPEN", "layer_becomes_visible(OPENING_APP)", false, some forgingFault.message, some "AMBIGUOUS_COMPONENT", []⟩,
   ⟨1, "OPEN", "window_visible_at_end(OPENING_APP)", false, some forgingFault.message, some "AMBIGUOUS_COMPONENT", []⟩]

theorem forgesBullet_forgingFault : ForgesBullet forgingFault.message := by
  have hwindow : ForgesBullet forgingWindow := ⟨"b", "2 `c`: d", by decide⟩
  have hlist : forgingWindow <:+: List.intercalate (", " : Text) ["a/.B", forgingWindow] :=
    List.infix_intercalate_of_mem (by simp)
  exact (hwindow.trans hlist).trans (List.suffix_append _ _).isInfix

/-- Not every report keeps its layout: the name of a rule can break a row, and that of a window can forge a bullet. -/
theorem names_break_layout :
    (∃ table findings, RuleTable.ofDocument barredRules none = .ok table ∧
      (audit table launchWindows launchLayers (.single launch) none).outcome = .ok findings ∧
      ¬ KeepsRows ⟨findings⟩ defaultTitle) ∧
    Row.toTransition forgingRow = .ok forging ∧
    (audit .builtIn launchWindows launchLayers (.single forging) none).outcome = .ok forgingFindings ∧
    ¬ KeepsBullets ⟨forgingFindings⟩ defaultTitle := by
  have houtcome : (audit .builtIn launchWindows launchLayers (.single forging) none).outcome =
      .ok forgingFindings := by rfl
  refine ⟨⟨⟨[("ALL", [⟨.notEmpty .windows, none, some "a|b", nofun⟩])], none⟩,
    [⟨1, "OPEN", "a|b", true, none, none, []⟩], by cbv, by rfl, fun h => ?_⟩, by rfl, houtcome, fun h => ?_⟩
  · have hplain := isPlain_of_keepsRows h _ List.mem_cons_self
    exact absurd hplain.2 (by decide)
  · have htitle : resultsHeading ∉ defaultTitle.moreLines := by decide
    have hrules : ∀ f ∈ forgingFindings, f.ruleId.OneLine := by simp [forgingFindings]
    have hdetail := (keepsBullets_iff htitle (regular_of_audit houtcome) hrules).mp h
    exact hdetail _ (List.mem_cons_of_mem _ (List.mem_cons_of_mem _ List.mem_cons_self)) _ rfl
      forgesBullet_forgingFault

end Report

end TransitionAudit
