import TransitionAudit.Proofs.Rule.Document
import Mathlib

/-!
# Keys and headings

Keys that differ in the blanks at their ends are read as one heading. A table has under a heading what the last
such key lists, so that rules are lost where an earlier one lists others.
-/

namespace TransitionAudit.RuleTable

/-! ## Rules of one key -/

/-- Whether a rule is read from one of the items of a value. -/
def Lists (v : Value) (r : Rule) : Prop :=
  ∃ items item, itemsOf? v = some items ∧ item ∈ items ∧ Rule.ofItem item = .ok r

theorem readRules_eq_ok_iff {heading : Text} {index : Nat} {items : List Value} {rules : List Rule} :
    readRules heading index items = .ok rules ↔
      List.Forall₂ (fun item r => Rule.ofItem item = .ok r) items rules := by
  induction items generalizing index rules with
  | nil => rw [readRules, List.forall₂_nil_left_iff, Except.ok.injEq, eq_comm]
  | cons item items ih =>
      simp only [readRules, Except.bind_eq_ok_iff, Except.pure_eq_ok_iff, Except.mapError_eq_ok_iff, ih,
        List.forall₂_cons_left_iff]
      constructor
      · rintro ⟨r, hr, rest, hrest, rfl⟩
        exact ⟨r, rest, hr, hrest, rfl⟩
      · rintro ⟨r, rest, hr, hrest, rfl⟩
        exact ⟨r, hr, rest, hrest, rfl⟩

theorem readRow_eq_ok_iff {key : Scalar} {v : Value} {row : Text × List Rule} :
    readRow key v = .ok row ↔ headingOf key = .ok row.1 ∧ isHeading row.1 = true ∧
      ∃ items, itemsOf? v = some items ∧ readRules row.1 0 items = .ok row.2 := by
  obtain ⟨heading, rules⟩ := row
  simp only [readRow, Except.bind_eq_ok_iff]
  constructor
  · rintro ⟨heading', hkey, hrow⟩
    cases hheading : isHeading heading' with
    | false => simp [hheading, throw, throwThe, MonadExceptOf.throw, bind, Except.bind] at hrow
    | true =>
        cases hitems : itemsOf? v with
        | none => simp [hheading, hitems, throw, throwThe, MonadExceptOf.throw] at hrow
        | some items =>
            simp only [hheading, hitems, Bool.not_true, Bool.false_eq_true, if_false, Except.bind_eq_ok_iff,
              Except.pure_eq_ok_iff] at hrow
            obtain ⟨rules', hrules, hpair⟩ := hrow
            obtain ⟨rfl, rfl⟩ := Prod.mk.inj hpair
            exact ⟨hkey, hheading, items, rfl, hrules⟩
  · rintro ⟨hkey, hheading, items, hitems, hrules⟩
    refine ⟨heading, hkey, ?_⟩
    simp only [hheading, hitems, Bool.not_true, Bool.false_eq_true, if_false, Except.bind_eq_ok_iff,
      Except.pure_eq_ok_iff]
    exact ⟨rules, hrules, rfl⟩

theorem lists_iff_mem {key : Scalar} {v : Value} {row : Text × List Rule} (h : readRow key v = .ok row)
    {r : Rule} : Lists v r ↔ r ∈ row.2 := by
  obtain ⟨-, -, items, hitems, hrules⟩ := readRow_eq_ok_iff.mp h
  rw [Except.mem_iff_of_forall₂ (readRules_eq_ok_iff.mp hrules)]
  simp only [Lists, hitems, Option.some.injEq]
  constructor
  · rintro ⟨_, item, rfl, hmem, hr⟩
    exact ⟨item, hmem, hr⟩
  · rintro ⟨item, hmem, hr⟩
    exact ⟨items, item, rfl, hmem, hr⟩

/-! ## Rules of one heading -/

/-- What stands under the first key that is read as a heading. -/
def firstUnder? (rows : Entries) (heading : Text) : Option Value :=
  (rows.find? fun e => (headingOf e.1).toOption = some heading).map (·.2)

/-- What stands under the last key that is read as a heading. -/
def lastUnder? (rows : Entries) (heading : Text) : Option Value := firstUnder? rows.reverse heading

theorem toOption_headingOf_iff {key : Scalar} {heading : Text} :
    (headingOf key).toOption = some heading ↔ headingOf key = .ok heading := by
  cases headingOf key <;> simp [Except.toOption]

theorem firstUnder?_eq_some_iff {rows : Entries} {heading : Text} {v : Value} :
    firstUnder? rows heading = some v ↔ ∃ before key after, rows = before ++ (key, v) :: after ∧
      headingOf key = .ok heading ∧ ∀ e ∈ before, headingOf e.1 ≠ .ok heading := by
  simp only [firstUnder?, Option.map_eq_some_iff, List.find?_eq_some_iff_append, Bool.not_eq_true',
    decide_eq_true_eq, decide_eq_false_iff_not, toOption_headingOf_iff]
  constructor
  · rintro ⟨⟨key, _⟩, ⟨hkey, before, after, hrows, hbefore⟩, rfl⟩
    exact ⟨before, key, after, hrows, hkey, hbefore⟩
  · rintro ⟨before, key, after, hrows, hkey, hbefore⟩
    exact ⟨(key, v), ⟨hkey, before, after, hrows, hbefore⟩, rfl⟩

theorem exists_mem_of_lastUnder? {rows : Entries} {heading : Text} {v : Value}
    (h : lastUnder? rows heading = some v) : ∃ key, (key, v) ∈ rows ∧ headingOf key = .ok heading := by
  obtain ⟨before, key, after, hrows, hkey, -⟩ := firstUnder?_eq_some_iff.mp h
  have hmem : (key, v) ∈ rows.reverse := hrows ▸ List.mem_append_right _ List.mem_cons_self
  exact ⟨key, List.mem_reverse.mp hmem, hkey⟩

/-- Whether no two keys are read as one heading. -/
def HeadingsDiffer (rows : Entries) : Prop := rows.Pairwise fun e f => headingOf e.1 ≠ headingOf f.1

theorem lastUnder?_of_mem {rows : Entries} (h : HeadingsDiffer rows) {key : Scalar} {v : Value}
    (hmem : (key, v) ∈ rows) {heading : Text} (hkey : headingOf key = .ok heading) :
    lastUnder? rows heading = some v := by
  obtain ⟨before, after, rfl⟩ := List.append_of_mem hmem
  have hafter : ∀ e ∈ after, headingOf key ≠ headingOf e.1 :=
    (List.pairwise_cons.mp (List.pairwise_append.mp h).2.1).1
  refine firstUnder?_eq_some_iff.mpr ⟨after.reverse, key, before.reverse, by simp, hkey, fun e he => ?_⟩
  exact fun he' => hafter e (List.mem_reverse.mp he) (hkey.trans he'.symm)

theorem mem_row?_iff {rows : Entries} {read : List (Text × List Rule)}
    (h : List.Forall₂ (fun e row => readRow e.1 e.2 = .ok row) rows read) {heading : Text} {r : Rule} :
    r ∈ (row? read heading).getD [] ↔ ∃ v, firstUnder? rows heading = some v ∧ Lists v r := by
  induction h with
  | nil => simp [row?, firstUnder?]
  | @cons e row rows read hrow _ ih =>
      obtain ⟨hkey, -, -⟩ := readRow_eq_ok_iff.mp hrow
      have hfirst : firstUnder? (e :: rows) heading =
          if row.1 = heading then some e.2 else firstUnder? rows heading := by
        by_cases hh : row.1 = heading <;> simp [firstUnder?, hkey, hh, Except.toOption]
      rw [hfirst, row?_cons]
      by_cases hh : row.1 = heading
      · simp only [hh, if_true, Option.getD_some, Option.some.injEq, exists_eq_left', lists_iff_mem hrow]
      · simp only [hh, if_false, ih]

/-! ## The rules of a document -/

/-- The table of a document has under a heading the rules of the last key that is read as the heading: none
that is not listed there, and those of all its keys as long as no two of them are read alike. -/
theorem under_ofDocument {document : Entries} {source : Option Text} {table : RuleTable}
    (h : ofDocument document source = .ok table) :
    ∃ rows, rowsOf document = .ok rows ∧
      (∀ key v, (key, v) ∈ rows → ∃ heading items, headingOf key = .ok heading ∧ itemsOf? v = some items ∧
        ∀ item ∈ items, ∃ r, Rule.ofItem item = .ok r) ∧
      (∀ heading r, r ∈ table.under heading ↔ ∃ v, lastUnder? rows heading = some v ∧ Lists v r) ∧
      (∀ heading r, r ∈ table.under heading →
        ∃ key v, (key, v) ∈ rows ∧ headingOf key = .ok heading ∧ Lists v r) ∧
      (HeadingsDiffer rows → ∀ key v heading r, (key, v) ∈ rows → headingOf key = .ok heading →
        Lists v r → r ∈ table.under heading) := by
  obtain ⟨-, rows, read, hrows, hread, rfl⟩ := ofDocument_eq_ok_iff.mp h
  rw [Except.mapM_eq_ok_iff_forall₂] at hread
  have hunder : ∀ heading r, r ∈ (RuleTable.of read source).under heading ↔
      ∃ v, lastUnder? rows heading = some v ∧ Lists v r := by
    intro heading r
    rw [lastUnder?, ← mem_row?_iff (List.forall₂_reverse_iff.mpr hread), under_of]
    cases row? read.reverse heading <;> simp [dedupe]
  refine ⟨rows, hrows, ?_, hunder, ?_, ?_⟩
  · intro key v hmem
    obtain ⟨row, hrow⟩ := Except.exists_of_mem_of_forall₂ hread hmem
    obtain ⟨hkey, -, items, hitems, hrules⟩ := readRow_eq_ok_iff.mp hrow
    exact ⟨row.1, items, hkey, hitems, fun item hitem =>
      Except.exists_of_mem_of_forall₂ (readRules_eq_ok_iff.mp hrules) hitem⟩
  · intro heading r hr
    obtain ⟨v, hlast, hlists⟩ := (hunder heading r).mp hr
    obtain ⟨key, hmem, hkey⟩ := exists_mem_of_lastUnder? hlast
    exact ⟨key, v, hmem, hkey, hlists⟩
  · intro hdiffer key v heading r hmem hkey hlists
    exact (hunder heading r).mpr ⟨v, lastUnder?_of_mem hdiffer hmem hkey, hlists⟩

/-- A document with two keys that differ in a blank. -/
def spelledTwice : Entries :=
  [(.text "transitions", .map
    [(.text "OPEN", .list [.scalar (.text "wm_trace_not_empty")]),
     (.text " OPEN", .list [.scalar (.text "layers_trace_not_empty")])])]

/-- The rule that demands a snapshot in a slice. -/
def notEmptyRule (side : Side) : Rule := ⟨.notEmpty side, none, none, nofun⟩

theorem spelledTwice_table : ofDocument spelledTwice none = .ok ⟨[("OPEN", [notEmptyRule .layers])], none⟩ := by
  cbv

/-- The rule under the first of two keys with one heading is lost. -/
theorem spelledTwice_loses :
    ∃ table rows v, ofDocument spelledTwice none = .ok table ∧ rowsOf spelledTwice = .ok rows ∧
      (.text "OPEN", v) ∈ rows ∧ headingOf (.text "OPEN") = .ok "OPEN" ∧ Lists v (notEmptyRule .windows) ∧
      notEmptyRule .windows ∉ table.under "OPEN" :=
  ⟨_, _, .list [.scalar (.text "wm_trace_not_empty")], spelledTwice_table, rfl, List.mem_cons_self, by cbv,
    ⟨_, _, rfl, List.mem_cons_self, by cbv⟩, by decide⟩

theorem under_ofDocument_spelledTwice :
    ofDocument spelledTwice none = .ok ⟨[("OPEN", [notEmptyRule .layers])], none⟩ ∧
    ∃ rows v, rowsOf spelledTwice = .ok rows ∧ lastUnder? rows "OPEN" = some v ∧ Lists v (notEmptyRule .layers) := by
  obtain ⟨rows, hrows, -, hunder, -, -⟩ := under_ofDocument spelledTwice_table
  obtain ⟨v, hlast, hlists⟩ := (hunder "OPEN" (notEmptyRule .layers)).mp (by decide)
  exact ⟨spelledTwice_table, rows, v, hrows, hlast, hlists⟩

end TransitionAudit.RuleTable
