import TransitionAudit.Proofs.Data.Merge
import TransitionAudit.Proofs.Data.Result
import TransitionAudit.Rule.Document

/-!
# Tables of documents

A document whose headings are spelled as they are read stands for a table exactly if it is written in the
known version and the rules under each of its headings can be read. The table has them under the same
headings.
-/

namespace TransitionAudit

/-! ## Rows of a table -/

namespace RuleTable

/-- What the first row with a heading holds. -/
def row? (rows : List (Text × List Rule)) (heading : Text) : Option (List Rule) :=
  (rows.find? fun row => row.1 == heading).map (·.2)

theorem row?_cons (h : Text) (rs : List Rule) (rows : List (Text × List Rule)) (heading : Text) :
    row? ((h, rs) :: rows) heading = if h = heading then some rs else row? rows heading := by
  by_cases hh : h = heading <;> simp [row?, hh]

theorem row?_append (rows others : List (Text × List Rule)) (heading : Text) :
    row? (rows ++ others) heading = (row? rows heading).or (row? others heading) := by
  simp only [row?, List.find?_append]
  cases rows.find? fun row => row.1 == heading <;> rfl

theorem row?_put (h : Text) (rs : List Rule) (rows : List (Text × List Rule)) (heading : Text) :
    row? (put h rs rows) heading = if h = heading then some rs else row? rows heading := by
  induction rows with
  | nil => rw [put, row?_cons]
  | cons row rows ih =>
      obtain ⟨h', rs'⟩ := row
      simp only [put]
      by_cases hh' : h' = h
      · subst hh'
        by_cases hh : h' = heading <;> simp [row?_cons, hh]
      · by_cases hh : h = heading
        · subst hh
          simp [row?_cons, hh', ih]
        · simp [row?_cons, hh', hh, ih]

/-- Of rows that are set one after the other the last one with a heading counts. -/
theorem row?_foldl_put (rows acc : List (Text × List Rule)) (heading : Text) :
    row? (rows.foldl (fun acc (h, rs) => put h rs acc) acc) heading =
      (row? rows.reverse heading).or (row? acc heading) := by
  induction rows generalizing acc with
  | nil => rfl
  | cons row rows ih =>
      obtain ⟨h, rs⟩ := row
      rw [List.foldl_cons, ih, row?_put, List.reverse_cons, row?_append, row?_cons]
      cases row? rows.reverse heading with
      | some rs' => rfl
      | none => by_cases hh : h = heading <;> simp [hh, row?]

theorem under_of (rows : List (Text × List Rule)) (source : Option Text) (heading : Text) :
    (RuleTable.of rows source).under heading = ((row? rows.reverse heading).map dedupe).getD [] := by
  have hset := row?_foldl_put rows [] heading
  have hnil : row? [] heading = none := rfl
  rw [hnil, Option.or_none] at hset
  rw [← hset]
  simp only [under, RuleTable.of, row?, List.find?_map, Option.map_map]
  rfl

theorem row?_eq_some_of_mem {rows : List (Text × List Rule)} (h : (rows.map (·.1)).Nodup) {heading : Text}
    {rs : List Rule} (hmem : (heading, rs) ∈ rows) : row? rows heading = some rs := by
  induction rows with
  | nil => cases hmem
  | cons row rows ih =>
      obtain ⟨h', rs'⟩ := row
      rw [List.map_cons, List.nodup_cons] at h
      rw [row?_cons]
      rcases List.mem_cons.mp hmem with heq | hmem
      · obtain ⟨rfl, rfl⟩ := Prod.mk.inj heq
        rw [if_pos rfl]
      · have hne : h' ≠ heading := fun hh => h.1 (hh ▸ List.mem_map.mpr ⟨_, hmem, rfl⟩)
        rw [if_neg hne, ih h.2 hmem]

theorem row?_eq_none_of_notMem {rows : List (Text × List Rule)} {heading : Text}
    (h : heading ∉ rows.map (·.1)) : row? rows heading = none := by
  induction rows with
  | nil => rfl
  | cons row rows ih =>
      obtain ⟨h', rs'⟩ := row
      rw [List.map_cons, List.mem_cons, not_or] at h
      rw [row?_cons, if_neg (Ne.symm h.1), ih h.2]

theorem under_of_mem {rows : List (Text × List Rule)} (h : (rows.map (·.1)).Nodup) {heading : Text}
    {rs : List Rule} (hmem : (heading, rs) ∈ rows) (source : Option Text) :
    (RuleTable.of rows source).under heading = dedupe rs := by
  have hreverse : (rows.reverse.map (·.1)).Nodup := by
    rw [List.map_reverse]
    exact List.nodup_reverse.mpr h
  rw [under_of, row?_eq_some_of_mem hreverse (List.mem_reverse.mpr hmem)]
  rfl

theorem under_of_notMem {rows : List (Text × List Rule)} {heading : Text} (h : heading ∉ rows.map (·.1))
    (source : Option Text) : (RuleTable.of rows source).under heading = [] := by
  have hreverse : heading ∉ rows.reverse.map (·.1) := by
    rwa [List.map_reverse, List.mem_reverse]
  rw [under_of, row?_eq_none_of_notMem hreverse]
  rfl

end RuleTable

/-! ## Documents with plain headings -/

namespace Entries

/-- What a document lists under a heading. -/
def listed? (document : Entries) (heading : Text) : Option Value :=
  ((get? document "transitions").bind Value.entries?).bind fun rows => get? rows heading

/-- Whether rules are listed in lists, or `null` for none, under headings as they are read. -/
def PlainRows (rows : Entries) : Prop :=
  ∀ e ∈ rows, (∃ h, e.1 = .text h ∧ Text.strip h = h ∧ RuleTable.isHeading h = true) ∧
    ∃ items, RuleTable.itemsOf? e.2 = some items

/-- Whether a document lists its rules under plain headings, if it lists any. -/
def PlainlyListed (document : Entries) : Prop :=
  ∀ v, get? document "transitions" = some v → ∃ rows, v = .map rows ∧ PlainRows rows

end Entries

namespace RuleTable

theorem readRow_ok_iff {h : Text} {v : Value} {items : List Value} (hstrip : Text.strip h = h)
    (hheading : isHeading h = true) (hitems : itemsOf? v = some items) {row : Text × List Rule} :
    readRow (.text h) v = .ok row ↔ row.1 = h ∧ readRules h 0 items = .ok row.2 := by
  have hof : headingOf (.text h) = .ok h := by simp [headingOf, Scalar.isWritable, Scalar.plain, hstrip]
  obtain ⟨h', rules'⟩ := row
  simp only [readRow, hof, hheading, hitems, bind, Except.bind, Bool.not_true, Bool.false_eq_true, ↓reduceIte,
    pure, Except.pure]
  cases readRules h 0 items with
  | error fault => simp
  | ok rules => simp [eq_comm]

/-- Whether the rules under each heading of some rows can be read. -/
def Readable (rows : Entries) : Prop :=
  ∀ h v items, (Scalar.text h, v) ∈ rows → itemsOf? v = some items → ∃ rules, readRules h 0 items = .ok rules

theorem mapM_readRow_of_readable {rows : Entries} (hrows : Entries.PlainRows rows) (hread : Readable rows) :
    ∃ read, rows.mapM (fun (key, v) => readRow key v) = .ok read := by
  induction rows with
  | nil => exact ⟨[], rfl⟩
  | cons e rows ih =>
      obtain ⟨key, v⟩ := e
      obtain ⟨⟨⟨h, rfl, hstrip, hheading⟩, items, hitems⟩, hrest⟩ := List.forall_mem_cons.mp hrows
      obtain ⟨rules, hrules⟩ := hread h v items List.mem_cons_self hitems
      obtain ⟨read, hok⟩ := ih hrest fun h' v' items' hmem =>
        hread h' v' items' (List.mem_cons_of_mem _ hmem)
      have hfirst : readRow (.text h) v = .ok (h, rules) :=
        (readRow_ok_iff hstrip hheading hitems).mpr ⟨rfl, hrules⟩
      refine ⟨(h, rules) :: read, ?_⟩
      rw [List.mapM_cons, hok]
      simp only [hfirst]
      rfl

/-- Every row stands under its heading with the rules that are read there. -/
theorem mapM_readRow_rows {rows : Entries} (hrows : Entries.PlainRows rows) {read : List (Text × List Rule)}
    (hread : rows.mapM (fun (key, v) => readRow key v) = .ok read) :
    read.map (fun row => Scalar.text row.1) = rows.map (·.1) ∧
      ∀ h v items, (Scalar.text h, v) ∈ rows → itemsOf? v = some items →
        ∃ rules, readRules h 0 items = .ok rules ∧ (h, rules) ∈ read := by
  rw [Except.mapM_eq_ok_iff_forall₂] at hread
  induction hread with
  | nil => exact ⟨rfl, by simp⟩
  | @cons e row rows read hrow _ ih =>
      obtain ⟨key, v⟩ := e
      obtain ⟨⟨⟨h, rfl, hstrip, hheading⟩, items, hitems⟩, hrest⟩ := List.forall_mem_cons.mp hrows
      obtain ⟨hfst, hrules⟩ := (readRow_ok_iff hstrip hheading hitems).mp hrow
      obtain ⟨hkeys, hmem⟩ := ih hrest
      refine ⟨by rw [List.map_cons, List.map_cons, hkeys, hfst], ?_⟩
      intro h' v' items' hin hitems'
      rcases List.mem_cons.mp hin with heq | hin
      · obtain ⟨hk, rfl⟩ := Prod.mk.inj heq
        cases hk
        obtain rfl : items' = items := Option.some.inj (hitems'.symm.trans hitems)
        exact ⟨row.2, hrules, by rw [← hfst]; exact List.mem_cons_self⟩
      · obtain ⟨rules, hr, hin'⟩ := hmem h' v' items' hin hitems'
        exact ⟨rules, hr, List.mem_cons_of_mem _ hin'⟩

/-- The rows of a plain document. -/
theorem rowsOf_of_plainlyListed {document : Entries} (h : document.PlainlyListed)
    (htree : (Value.map document).IsTree) :
    ∃ rows, rowsOf document = .ok rows ∧ Entries.PlainRows rows ∧ Entries.TextKeyed rows ∧
      ∀ heading, document.listed? heading = Entries.get? rows heading := by
  unfold rowsOf Entries.listed?
  cases hv : Entries.get? document "transitions" with
  | none => exact ⟨[], rfl, by simp [Entries.PlainRows], by simp [Entries.TextKeyed], fun _ => rfl⟩
  | some v =>
      obtain ⟨rows, rfl, hrows⟩ := h v hv
      exact ⟨rows, rfl, hrows, (htree.get? hv).keys, fun _ => rfl⟩

/-- Whether the rules that a document lists can be read. -/
def ListsReadable (listed? : Text → Option Value) : Prop :=
  ∀ h v items, listed? h = some v → itemsOf? v = some items → ∃ rules, readRules h 0 items = .ok rules

/-- Whether a table has under each heading the rules that are listed there, and no others. -/
def HoldsListed (table : RuleTable) (listed? : Text → Option Value) : Prop :=
  ∀ h, (listed? h = none → table.under h = []) ∧
    ∀ v, listed? h = some v → ∃ items rules, itemsOf? v = some items ∧ readRules h 0 items = .ok rules ∧
      table.under h = dedupe rules

theorem ofDocument_eq_ok_iff {document : Entries} {source : Option Text} {table : RuleTable} :
    ofDocument document source = .ok table ↔ versionOf document = .ok documentVersion ∧
      ∃ rows read, rowsOf document = .ok rows ∧ rows.mapM (fun (key, v) => readRow key v) = .ok read ∧
        table = .of read source := by
  simp only [ofDocument, Except.bind_eq_ok_iff]
  constructor
  · rintro ⟨version, hversion, h⟩
    split at h
    · cases h
    · rename_i hsame
      simp only [Except.bind_eq_ok_iff, Except.pure_eq_ok_iff] at h
      obtain ⟨rows, hrows, read, hread, rfl⟩ := h
      exact ⟨hversion.trans (congrArg _ (not_not.mp hsame)), rows, read, hrows, hread, rfl⟩
  · rintro ⟨hversion, rows, read, hrows, hread, rfl⟩
    refine ⟨documentVersion, hversion, ?_⟩
    rw [if_neg (not_not.mpr rfl)]
    simp only [Except.bind_eq_ok_iff, Except.pure_eq_ok_iff]
    exact ⟨rows, hrows, read, hread, rfl⟩

section
variable {document : Entries}

/-- The rows of a plain document hold what it lists. -/
theorem mem_rows_iff {rows : Entries} (hkeys : Entries.TextKeyed rows)
    (hlisted : ∀ heading, document.listed? heading = Entries.get? rows heading) {heading : Text} {v : Value} :
    (Scalar.text heading, v) ∈ rows ↔ document.listed? heading = some v := by
  rw [hlisted]
  exact ⟨Entries.get?_of_mem hkeys, Entries.mem_of_get?⟩

/-- A plain document stands for a table exactly if it is of the known version and its rules can be read. -/
theorem exists_table_iff (h : document.PlainlyListed) (htree : (Value.map document).IsTree)
    (source : Option Text) :
    (∃ table, ofDocument document source = .ok table) ↔
      versionOf document = .ok documentVersion ∧ ListsReadable document.listed? := by
  obtain ⟨rows, hrowsOf, hplain, hkeys, hlisted⟩ := rowsOf_of_plainlyListed h htree
  constructor
  · rintro ⟨table, htable⟩
    obtain ⟨hversion, rows', read, hrows', hread, -⟩ := ofDocument_eq_ok_iff.mp htable
    obtain rfl := Except.ok.inj (hrowsOf.symm.trans hrows')
    refine ⟨hversion, fun heading v items hv hitems => ?_⟩
    have hmem := (mem_rows_iff hkeys hlisted).mpr hv
    obtain ⟨rules, hrules, -⟩ := (mapM_readRow_rows hplain hread).2 heading v items hmem hitems
    exact ⟨rules, hrules⟩
  · rintro ⟨hversion, hreadable⟩
    obtain ⟨read, hread⟩ := mapM_readRow_of_readable hplain fun heading v items hin =>
      hreadable heading v items ((mem_rows_iff hkeys hlisted).mp hin)
    exact ⟨_, ofDocument_eq_ok_iff.mpr ⟨hversion, rows, read, hrowsOf, hread, rfl⟩⟩

/-- The table of a plain document holds what the document lists. -/
theorem holdsListed_of_ofDocument (h : document.PlainlyListed) (htree : (Value.map document).IsTree)
    {source : Option Text} {table : RuleTable} (htable : ofDocument document source = .ok table) :
    HoldsListed table document.listed? := by
  obtain ⟨rows, hrowsOf, hplain, hkeys, hlisted⟩ := rowsOf_of_plainlyListed h htree
  obtain ⟨-, rows', read, hrows', hread, rfl⟩ := ofDocument_eq_ok_iff.mp htable
  obtain rfl := Except.ok.inj (hrowsOf.symm.trans hrows')
  obtain ⟨hfst, hrows⟩ := mapM_readRow_rows hplain hread
  have htexts : (read.map (·.1)).map Scalar.text = rows.map (·.1) := by rw [← hfst, List.map_map]; rfl
  have hnodup : (read.map (·.1)).Nodup := List.Nodup.of_map Scalar.text (by rw [htexts]; exact hkeys.2)
  intro heading
  constructor
  · intro hnone
    refine under_of_notMem (fun hin => ?_) source
    have hkey : Scalar.text heading ∈ rows.map (·.1) := htexts ▸ List.mem_map_of_mem hin
    obtain ⟨⟨_, v⟩, hmem, rfl⟩ := List.mem_map.mp hkey
    have hsome := (mem_rows_iff hkeys hlisted).mp hmem
    rw [hnone] at hsome
    cases hsome
  · intro v hv
    have hmem := (mem_rows_iff hkeys hlisted).mpr hv
    obtain ⟨-, items, hitems⟩ := hplain _ hmem
    obtain ⟨rules, hrules, hin⟩ := hrows heading v items hmem hitems
    exact ⟨items, rules, hitems, hrules, under_of_mem hnodup hin source⟩

end

end RuleTable

end TransitionAudit
