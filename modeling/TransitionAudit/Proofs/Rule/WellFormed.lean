import TransitionAudit.Proofs.Data.Distinct
import TransitionAudit.Proofs.Rule.Heading
import TransitionAudit.Proofs.Transition.Mode
import TransitionAudit.Rule.File
import Mathlib.Data.List.DropRight

/-!
# Well-formed rules

What holds of all rules that are read from documents: their checks and components can be looked up by name, their
own names are trimmed and not empty, and no list has a rule twice. The rules for a transition keep all of this.
-/

namespace TransitionAudit

/-! ## Names without blanks at their ends -/

namespace Text

theorem trimBy_trimBy {β : Type} (blank : β → Bool) (s : List β) :
    trimBy blank (trimBy blank s) = trimBy blank s := by
  have hfront : (trimBy blank s).dropWhile blank = trimBy blank s := by
    have hprefix : trimBy blank s <+: s.dropWhile blank := List.rdropWhile_prefix blank _
    cases htrim : trimBy blank s with
    | nil => rfl
    | cons x rest =>
        obtain ⟨after, hafter⟩ := htrim ▸ hprefix
        have hx := List.head?_dropWhile_not blank s
        rw [← hafter] at hx
        exact List.dropWhile_cons_of_neg (by simpa using hx)
  rw [trimBy, hfront]
  exact List.rdropWhile_idempotent blank (s.dropWhile blank)

theorem strip_strip (t : Text) : strip (strip t) = strip t := trimBy_trimBy _ t

end Text

/-! ## Rules -/

theorem Check.ofName?_name (c : Check) : Check.ofName? c.name = some c := by
  cases c with
  | notEmpty side | visibleAtEnd side | invisibleAtEnd side | alwaysVisible side =>
      cases side <;> simp [ofName?, all, name, Text.ofString_beq]
  | focusedAtEnd => simp [ofName?, all, name, Text.ofString_beq]
  | becomes visible => cases visible <;> simp [ofName?, all, name, Text.ofString_beq]

namespace Rule

/-- What tells rules apart. -/
def parts (r : Rule) : Check × Option Component × Option Text := (r.check, r.component, r.name)

theorem parts_injective : Function.Injective parts := by
  rintro ⟨check, component, name, _⟩ ⟨check', component', name', _⟩ h
  simp only [parts, Prod.mk.injEq] at h
  obtain ⟨rfl, rfl, rfl⟩ := h
  rfl

/-- Whether a rule can be looked up and shown: its check is one of the listed ones, its component is one that
documents can name and is there if the check needs one, and neither its own name nor what it is called is
empty. -/
structure WellFormed (r : Rule) : Prop where
  check : Check.ofName? r.check.name = some r.check
  component : ∀ c, r.component = some c → c ∈ Component.known ∧ c ≠ .empty
  complete : r.check.needsComponent = true → r.component ≠ none
  name : ∀ n, r.name = some n → n ≠ [] ∧ Text.strip n = n
  id : r.id ≠ []

theorem nonblank?_eq_some {v : Value} {s : Text} (h : nonblank? v = some s) : s ≠ [] ∧ Text.strip s = s := by
  unfold nonblank? at h
  split at h
  · split at h
    · cases h
    · rename_i hne
      cases h
      exact ⟨by simpa using hne, Text.strip_strip _⟩
  · cases h

theorem nameField_eq_ok {v : Option Value} {n : Text} (h : nameField v = .ok (some n)) :
    n ≠ [] ∧ Text.strip n = n := by
  unfold nameField at h
  split at h
  · cases h
  · cases h
  · split at h
    · rename_i hs
      cases h
      exact nonblank?_eq_some hs
    · cases h

theorem mem_known_of_componentNamed {name : Option Text} {c : Component}
    (h : componentNamed name = .ok (some c)) : c ∈ Component.known := by
  cases name with
  | none => cases h
  | some name =>
      simp only [componentNamed, Component.lookup, Except.map_eq_ok_iff, Option.some.injEq] at h
      obtain ⟨c', hc', rfl⟩ := h
      split at hc'
      · rename_i hfind
        cases hc'
        exact List.mem_of_find?_eq_some hfind
      · cases hc'

theorem of_eq_ok {check : Text} {component : Option Component} {name : Option Text} {r : Rule}
    (h : Rule.of check component name = .ok r) : r.component = component ∧ r.name = name := by
  unfold Rule.of ofCheck at h
  split at h
  · split at h
    · cases h
      exact ⟨rfl, rfl⟩
    · cases h
  · cases h

theorem name_ne_nil (c : Check) : c.name ≠ [] := by
  intro h
  have hlook := Check.ofName?_name c
  rw [h] at hlook
  cases hlook

theorem id_ne_nil (r : Rule) : r.id ≠ [] := by
  unfold id
  split
  · exact name_ne_nil r.check
  · exact name_ne_nil r.check
  · simp [name_ne_nil]
  · simp [name_ne_nil]
  · rename_i name _ hnone hsome
    rintro rfl
    cases hcomponent : r.component with
    | none => exact hnone hcomponent rfl
    | some c => exact hsome c hcomponent rfl

theorem id_of_name {r : Rule} {n : Text} (hname : r.name = some n) (hne : n ≠ []) : r.id = n := by
  obtain ⟨p, rest, rfl⟩ := List.exists_cons_of_ne_nil hne
  rw [id, hname]

theorem wellFormed_of_known {r : Rule} (hname : r.name = none) (h : ∀ c ∈ r.component, c ∈ Component.known) :
    r.WellFormed where
  check := Check.ofName?_name r.check
  component := fun c hc => ⟨h c hc, fun hempty => absurd (hempty ▸ h c hc) (by decide)⟩
  complete := fun hneeds => Option.isSome_iff_ne_none.mp (r.complete hneeds)
  name := by simp [hname]
  id := r.id_ne_nil

theorem exists_ofEntries_of_ofItem {item : Value} {r : Rule} (h : ofItem item = .ok r) :
    ∃ es, ofEntries es = .ok r := by
  unfold ofItem at h
  split at h
  · exact ⟨_, h⟩
  · cases hes : item.entries? with
    | none =>
        rw [hes] at h
        cases h
    | some es =>
        rw [hes] at h
        exact ⟨es, h⟩

theorem wellFormed_of_item {item : Value} {r : Rule} (h : ofItem item = .ok r) : r.WellFormed := by
  obtain ⟨es, hes⟩ := exists_ofEntries_of_ofItem h
  simp only [ofEntries, named, Except.bind_eq_ok_iff, Except.mapError_eq_ok_iff] at hes
  obtain ⟨-, -, check, -, componentName, -, name, hname, component, hcomponent, hr⟩ := hes
  obtain ⟨rfl, rfl⟩ := of_eq_ok hr
  have hknown : ∀ c, r.component = some c → c ∈ Component.known := by
    intro c hc
    rw [hc] at hcomponent
    exact mem_known_of_componentNamed hcomponent
  exact {
    check := Check.ofName?_name r.check
    component := fun c hc => ⟨hknown c hc, fun hempty => absurd (hempty ▸ hknown c hc) (by decide)⟩
    complete := fun hneeds => Option.isSome_iff_ne_none.mp (r.complete hneeds)
    name := fun n hn => nameField_eq_ok (hname.trans (congrArg _ hn))
    id := r.id_ne_nil }

end Rule

/-! ## Lists of rules -/

/-- Whether the rules of a list are well-formed and no two of them are about the same with the same name. -/
structure WellFormedRules (rules : List Rule) : Prop where
  each : ∀ r ∈ rules, r.WellFormed
  distinct : (rules.map Rule.parts).Nodup

theorem wellFormedRules_dedupe {rules : List Rule} (h : ∀ r ∈ rules, r.WellFormed) :
    WellFormedRules (dedupe rules) :=
  ⟨fun r hr => h r (List.mem_eraseDups.mp hr), (nodup_eraseDups rules).map Rule.parts_injective⟩

namespace RuleTable

/-- Whether all headings of a table stand for all transitions or for different modes with bars between them, and
the rules under each of them are well-formed. -/
structure WellFormed (t : RuleTable) : Prop where
  headings : ∀ heading ∈ t.headings, heading = everyType ∨
    ∃ modes : List Mode, modes ≠ [] ∧ modes.Nodup ∧ heading = List.intercalate "|" (modes.map Mode.name)
  rows : ∀ row ∈ t.rows, WellFormedRules row.2

theorem mem_put {h : Text} {rs : List Rule} {rows : List (Text × List Rule)} {row : Text × List Rule}
    (hrow : row ∈ put h rs rows) : row = (h, rs) ∨ row ∈ rows := by
  induction rows with
  | nil => exact .inl (List.mem_singleton.mp hrow)
  | cons row' rows ih =>
      simp only [put] at hrow
      split at hrow
      · rename_i hsame
        exact (List.mem_cons.mp hrow).imp (fun heq => by rw [heq, hsame]) (List.mem_cons_of_mem _)
      · rcases List.mem_cons.mp hrow with rfl | hrow
        · exact .inr List.mem_cons_self
        · exact (ih hrow).imp_right (List.mem_cons_of_mem _)

theorem mem_foldl_put {rows acc : List (Text × List Rule)} {row : Text × List Rule}
    (h : row ∈ rows.foldl (fun acc (h, rs) => put h rs acc) acc) : row ∈ acc ∨ row ∈ rows := by
  induction rows generalizing acc with
  | nil => exact .inl h
  | cons first rows ih =>
      rcases ih h with hacc | hrows
      · rcases mem_put hacc with rfl | hacc
        · exact .inr List.mem_cons_self
        · exact .inl hacc
      · exact .inr (List.mem_cons_of_mem _ hrows)

theorem exists_of_mem_rows {rows : List (Text × List Rule)} {source : Option Text} {row : Text × List Rule}
    (h : row ∈ (RuleTable.of rows source).rows) : ∃ rs, (row.1, rs) ∈ rows ∧ row.2 = dedupe rs := by
  obtain ⟨⟨heading, rs⟩, hmem, rfl⟩ := List.mem_map.mp h
  exact ⟨rs, (mem_foldl_put hmem).resolve_left List.not_mem_nil, rfl⟩

theorem wellFormedRules_rulesFor {t : RuleTable} (h : t.WellFormed) (type : TransitionType) :
    WellFormedRules (t.rulesFor type) := by
  have hunder : ∀ heading, ∀ r ∈ t.under heading, r.WellFormed := by
    intro heading r hr
    unfold under at hr
    cases hfind : t.rows.find? fun row => row.1 == heading with
    | none => simp [hfind] at hr
    | some row =>
        rw [hfind] at hr
        exact (h.rows row (List.mem_of_find?_eq_some hfind)).each r hr
  exact wellFormedRules_dedupe fun r hr => (List.mem_append.mp hr).elim (hunder _ r) (hunder _ r)

theorem wellFormed_of_document {document : Entries} {source : Option Text} {table : RuleTable}
    (h : ofDocument document source = .ok table) : table.WellFormed := by
  obtain ⟨-, rows, read, -, hread, rfl⟩ := ofDocument_eq_ok_iff.mp h
  rw [Except.mapM_eq_ok_iff_forall₂] at hread
  have hrows : ∀ row ∈ (RuleTable.of read source).rows,
      isHeading row.1 = true ∧ ∃ rs, (∀ r ∈ rs, r.WellFormed) ∧ row.2 = dedupe rs := by
    intro row hrow
    obtain ⟨rs, hmem, hrs⟩ := exists_of_mem_rows hrow
    obtain ⟨e, -, he⟩ := (Except.mem_iff_of_forall₂ hread).mp hmem
    obtain ⟨-, hheading, items, -, hrules⟩ := readRow_eq_ok_iff.mp he
    refine ⟨hheading, rs, fun r hr => ?_, hrs⟩
    obtain ⟨item, -, hitem⟩ := (Except.mem_iff_of_forall₂ (readRules_eq_ok_iff.mp hrules)).mp hr
    exact Rule.wellFormed_of_item hitem
  constructor
  · intro heading hheading
    obtain ⟨row, hrow, rfl⟩ := List.mem_map.mp hheading
    have his := (hrows row hrow).1
    rw [isHeading, Bool.or_eq_true, beq_iff_eq, Option.isSome_iff_exists] at his
    rcases his with hall | ⟨type, htype⟩
    · exact .inl hall
    · exact .inr ⟨type.modes, type.nonempty, type.distinct, (TransitionType.text_of_ofText? htype).symm⟩
  · intro row hrow
    obtain ⟨-, rs, hrs, hrow⟩ := hrows row hrow
    exact hrow ▸ wellFormedRules_dedupe hrs

theorem wellFormed_of_library {l : Library} {path : Path} {table : RuleTable} (h : l.table path = .ok table) :
    table.WellFormed := by
  simp only [Library.table, Except.bind_eq_ok_iff, Except.mapError_eq_ok_iff] at h
  obtain ⟨-, -, source, -, merged, -, h⟩ := h
  exact wellFormed_of_document h

theorem wellFormed_builtIn : builtIn.WellFormed where
  headings := by
    have hheadings : builtIn.headings =
        everyType :: ([.open, .toFront, .close, .toBack] : List Mode).map Mode.name := by rfl
    intro heading h
    rw [hheadings] at h
    rcases List.mem_cons.mp h with rfl | h
    · exact .inl rfl
    · obtain ⟨mode, -, rfl⟩ := List.mem_map.mp h
      exact .inr ⟨[mode], by simp, by simp, by simp⟩
  rows := by
    have hrules : ∀ row ∈ builtIn.rows, (∀ r ∈ row.2, r.name = none ∧ ∀ c ∈ r.component, c ∈ Component.known) ∧
        (row.2.map Rule.parts).Nodup := by
      decide
    intro row hrow
    obtain ⟨hknown, hdistinct⟩ := hrules row hrow
    exact ⟨fun r hr => Rule.wellFormed_of_known (hknown r hr).1 (hknown r hr).2, hdistinct⟩

/-- A table that is read from a document, or from a file with its bases, is well-formed, and so are the rules it
has for any transition. -/
theorem wellFormed_of_reading :
    (∀ document source table, ofDocument document source = .ok table →
      table.WellFormed ∧ ∀ t : Transition, WellFormedRules (table.rulesFor t.type)) ∧
    ∀ (l : Library) path table, l.table path = .ok table →
      table.WellFormed ∧ ∀ t : Transition, WellFormedRules (table.rulesFor t.type) := by
  refine ⟨fun document source table h => ?_, fun l path table h => ?_⟩
  · exact ⟨wellFormed_of_document h, fun t => wellFormedRules_rulesFor (wellFormed_of_document h) t.type⟩
  · exact ⟨wellFormed_of_library h, fun t => wellFormedRules_rulesFor (wellFormed_of_library h) t.type⟩

/-- A rule with blanks around its names. -/
def paddedItem : Value :=
  .map [(.text "check", .scalar (.text "layer_becomes_visible ")), (.text "component", .scalar (.text " OPENING_APP")),
    (.text "name", .scalar (.text " flicker "))]

/-- A document that lists this rule, and another one twice. -/
def paddedDocument : Entries :=
  [(.text "transitions", .map [(.text " OPEN|WAKE", .list
    [paddedItem, .scalar (.text "wm_trace_not_empty"), .scalar (.text "wm_trace_not_empty ")])])]

def flickerRule : Rule := ⟨.becomes true, some .openingApp, some "flicker", fun _ => rfl⟩

theorem paddedDocument_table (source : Option Text) : ofDocument paddedDocument source =
    .ok (.of [("OPEN|WAKE", [flickerRule, notEmptyRule .windows, notEmptyRule .windows])] source) := by
  have hpadded : Rule.ofItem paddedItem = .ok flickerRule := by cbv
  have hplain : Rule.ofItem (.scalar (.text "wm_trace_not_empty")) = .ok (notEmptyRule .windows) := by cbv
  have hagain : Rule.ofItem (.scalar (.text "wm_trace_not_empty ")) = .ok (notEmptyRule .windows) := by cbv
  refine ofDocument_eq_ok_iff.mpr ⟨rfl, _, _, rfl, Except.mapM_eq_ok_iff_forall₂.mpr (.cons ?_ .nil), rfl⟩
  exact readRow_eq_ok_iff.mpr ⟨by cbv, by cbv, _, rfl,
    readRules_eq_ok_iff.mpr (.cons hpadded (.cons hplain (.cons hagain .nil)))⟩

/-- A library in which every file holds this document. -/
def paddedLibrary : Library := ⟨fun _ => .ok paddedDocument, fun _ => .ok true, .ok⟩

theorem wellFormed_of_reading_paddedDocument :
    (∃ table, ofDocument paddedDocument none = .ok table ∧ table.WellFormed ∧ flickerRule.id = "flicker") ∧
      ∃ table, paddedLibrary.table ⟨.single, ["rules.yaml"]⟩ = .ok table ∧ table.WellFormed := by
  have hfile : paddedLibrary.table ⟨.single, ["rules.yaml"]⟩ = .ok (.of
      [("OPEN|WAKE", [flickerRule, notEmptyRule .windows, notEmptyRule .windows])] (some "/rules.yaml")) :=
    congrArg (Except.mapError SourceFault.document) (paddedDocument_table (some "/rules.yaml"))
  exact ⟨⟨_, paddedDocument_table none, (wellFormed_of_reading.1 _ _ _ (paddedDocument_table none)).1, rfl⟩,
    _, hfile, (wellFormed_of_reading.2 _ _ _ hfile).1⟩

end RuleTable

end TransitionAudit
