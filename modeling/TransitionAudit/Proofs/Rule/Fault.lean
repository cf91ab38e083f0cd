import TransitionAudit.Proofs.Rule.Chain

/-!
# Documents whose faults cannot be put into words

Two faults of a document are none of what it says: an integer that is too long to be written, and keys of a rule
that are no texts, so that the unknown ones among them cannot be listed. Each of them comes from such an integer
or key in the document.
-/

namespace TransitionAudit

/-- Whether the unknown keys of an item could not be listed. -/
inductive ItemFault.Unlisted : ItemFault → Prop
  | unsortedKeys (fault : OrderFault) : Unlisted (.unsortedKeys fault)
  | keyNotText (index : Nat) (key : Scalar) : Unlisted (.keyNotText index key)

/-- Whether a rule is written as a mapping with a key that is no text. -/
def Value.HasOddKey (item : Value) : Prop := ∃ es, item.entries? = some es ∧ ∃ e ∈ es, ∀ s, e.1 ≠ .text s

namespace Rule

theorem not_unlisted_checkField {v : Option Value} {fault : ItemFault} (h : checkField v = .error fault) :
    ¬ fault.Unlisted := by
  unfold checkField at h
  split at h
  · cases h
  · cases h
    rintro ⟨⟩

theorem not_unlisted_componentField {v : Option Value} {fault : ItemFault}
    (h : componentField v = .error fault) : ¬ fault.Unlisted := by
  unfold componentField at h
  split at h
  · cases h
  · cases h
  · cases h
  · cases h
    rintro ⟨⟩

theorem not_unlisted_nameField {v : Option Value} {fault : ItemFault} (h : nameField v = .error fault) :
    ¬ fault.Unlisted := by
  unfold nameField at h
  split at h
  · cases h
  · cases h
  · split at h
    · cases h
    · cases h
      rintro ⟨⟩

theorem keyTexts_ok {keys : List Scalar} (h : ∀ key ∈ keys, ∃ s, key = .text s) (index : Nat) :
    ∃ names, keyTexts index keys = .ok names := by
  induction keys generalizing index with
  | nil => exact ⟨[], rfl⟩
  | cons key keys ih =>
      obtain ⟨⟨s, rfl⟩, hkeys⟩ := List.forall_mem_cons.mp h
      obtain ⟨names, hnames⟩ := ih hkeys (index + 1)
      exact ⟨s :: names, by simp only [keyTexts, hnames, Except.map]⟩

/-- Unknown keys that are texts are listed. -/
theorem not_unlisted_noUnknownKeys {item : Entries} (hkeys : ∀ e ∈ item, ∃ s, e.1 = .text s)
    {fault : ItemFault} (h : noUnknownKeys item = .error fault) : ¬ fault.Unlisted := by
  let unknown := (item.map (·.1)).filter fun key => !isDocumentKey key
  have hunknown : ∀ key ∈ unknown, ∃ s, key = .text s := by
    intro key hkey
    obtain ⟨e, he, rfl⟩ := List.mem_map.mp (List.mem_filter.mp hkey).1
    exact hkeys e he
  have htexts : ∀ e ∈ unknown.map fun key => (key, ()), ∃ s, e.1 = .text s := List.forall_mem_map.mpr hunknown
  obtain ⟨sorted, hsorted, hperm⟩ := sortEntries_of_text htexts
  have hsortedKeys : ∀ key ∈ sorted.map (·.1), ∃ s, key = .text s := by
    intro key hkey
    obtain ⟨e, he, rfl⟩ := List.mem_map.mp hkey
    obtain ⟨key', hkey', rfl⟩ := List.mem_map.mp (hperm.mem_iff.mp he)
    exact hunknown key' hkey'
  obtain ⟨names, hnames⟩ := keyTexts_ok hsortedKeys 0
  unfold noUnknownKeys at h
  simp only [unknown] at hsorted
  simp only [hsorted, hnames, Except.mapError, bind, Except.bind] at h
  split at h
  · cases h
    rintro ⟨⟩
  · cases h

theorem not_unlisted_ofEntries {item : Entries} (hkeys : ∀ e ∈ item, ∃ s, e.1 = .text s)
    {fault : ItemFault} (h : ofEntries item = .error fault) : ¬ fault.Unlisted := by
  simp only [ofEntries, Except.bind_eq_error_iff, Except.mapError_eq_error_iff] at h
  rcases h with h | ⟨_, -, h | ⟨_, -, h | ⟨_, -, h | ⟨_, -, _, -, rfl⟩⟩⟩⟩
  · exact not_unlisted_noUnknownKeys hkeys h
  · exact not_unlisted_checkField h
  · exact not_unlisted_componentField h
  · exact not_unlisted_nameField h
  · rintro ⟨⟩

theorem hasOddKey_of_unlisted {item : Value} {fault : ItemFault} (h : ofItem item = .error fault)
    (hfault : fault.Unlisted) : item.HasOddKey := by
  unfold ofItem at h
  split at h
  · exact absurd hfault (not_unlisted_ofEntries (by simp) h)
  · cases hes : item.entries? with
    | none =>
        rw [hes] at h
        cases h
        cases hfault
    | some es =>
        rw [hes] at h
        by_contra hodd
        refine not_unlisted_ofEntries (fun e he => ?_) h hfault
        by_contra htext
        exact hodd ⟨es, hes, e, he, fun s hs => htext ⟨s, hs⟩⟩

end Rule

/-! ## Documents -/

/-- Whether the fault of a document is none of what it says. -/
inductive DocumentFault.Unsaid : DocumentFault → Prop
  | unwritable : Unsaid .unwritable
  | item {fault : ItemFault} (place : RulePlace) (unlisted : fault.Unlisted) : Unsaid (.item place fault)

namespace RuleTable

/-- Whether a document lists a rule with a key that is no text. -/
def HasOddKey (document : Entries) : Prop :=
  ∃ rows, rowsOf document = .ok rows ∧
    ∃ e ∈ rows, ∃ items, itemsOf? e.2 = some items ∧ ∃ item ∈ items, item.HasOddKey

/-- Whether the version of a document, or one of its headings, holds an integer that is too long. -/
def HasLongInteger (document : Entries) : Prop :=
  (∃ v, Entries.get? document "schema_version" = some v ∧ v.isWritable = false) ∨
    ∃ rows, rowsOf document = .ok rows ∧ ∃ e ∈ rows, e.1.isWritable = false

theorem readRules_eq_error {heading : Text} {index : Nat} {items : List Value} {fault : DocumentFault}
    (h : readRules heading index items = .error fault) :
    ∃ place f, fault = .item place f ∧ ∃ item ∈ items, Rule.ofItem item = .error f := by
  induction items generalizing index with
  | nil => cases h
  | cons item items ih =>
      simp only [readRules, Except.bind_eq_error_iff, Except.mapError_eq_error_iff, Except.pure_ne_error, and_false,
        exists_false, or_false] at h
      rcases h with ⟨f, hf, rfl⟩ | ⟨_, -, hrest⟩
      · exact ⟨⟨heading, index⟩, f, rfl, item, List.mem_cons_self, hf⟩
      · obtain ⟨place, f, hfault, other, hother, hf⟩ := ih hrest
        exact ⟨place, f, hfault, other, List.mem_cons_of_mem _ hother, hf⟩

theorem readRow_unsaid {key : Scalar} {v : Value} {fault : DocumentFault}
    (h : readRow key v = .error fault) (hfault : fault.Unsaid) :
    key.isWritable = false ∨ ∃ items, itemsOf? v = some items ∧ ∃ item ∈ items, item.HasOddKey := by
  unfold readRow at h
  rw [Except.bind_eq_error_iff] at h
  rcases h with hkey | ⟨heading, -, h⟩
  · unfold headingOf at hkey
    split at hkey
    · cases hkey
    · rename_i hwritable
      exact Or.inl (by simpa using hwritable)
  · right
    cases hheading : isHeading heading with
    | false =>
        simp only [hheading, Bool.not_false, if_true, throw, throwThe, MonadExceptOf.throw, bind, Except.bind] at h
        cases h
        cases hfault
    | true =>
        simp only [hheading, Bool.not_true, Bool.false_eq_true, if_false] at h
        cases hitems : itemsOf? v with
        | none =>
            rw [hitems] at h
            cases h
            cases hfault
        | some items =>
            simp only [hitems, Except.bind_eq_error_iff, Except.pure_ne_error, and_false, exists_false, or_false] at h
            obtain ⟨place, f, rfl, item, hitem, hf⟩ := readRules_eq_error h
            cases hfault with
            | item _ hunlisted => exact ⟨items, rfl, item, hitem, Rule.hasOddKey_of_unlisted hf hunlisted⟩

/-- A document whose fault is none of what it says has an odd key or a long integer. -/
theorem ofDocument_unsaid {document : Entries} {source : Option Text} {fault : DocumentFault}
    (h : ofDocument document source = .error fault) (hfault : fault.Unsaid) :
    HasLongInteger document ∨ HasOddKey document := by
  unfold ofDocument at h
  rw [Except.bind_eq_error_iff] at h
  rcases h with hversion | ⟨version, -, h⟩
  · unfold versionOf at hversion
    split at hversion
    · cases hversion
    · rename_i v hv
      split at hversion
      · cases hversion
      · rename_i hwritable
        exact Or.inl (Or.inl ⟨v, hv, by simpa using hwritable⟩)
  · split at h
    · cases h
      cases hfault
    · simp only [Except.bind_eq_error_iff, Except.pure_ne_error, and_false, exists_false, or_false] at h
      rcases h with hrows | ⟨rows, hrows, hread⟩
      · unfold rowsOf at hrows
        split at hrows
        · cases hrows
        · cases hrows
        · rename_i v _ _
          cases hv : v.entries? with
          | none =>
              rw [hv] at hrows
              cases hrows
              cases hfault
          | some es =>
              rw [hv] at hrows
              cases hrows
      · obtain ⟨e, he, hrow⟩ := Except.exists_mem_of_mapM_eq_error hread
        rcases readRow_unsaid hrow hfault with hkey | ⟨items, hitems, hodd⟩
        · exact Or.inl (Or.inr ⟨rows, hrows, e, he, hkey⟩)
        · exact Or.inr ⟨rows, hrows, e, he, items, hitems, hodd⟩

end RuleTable

/-! ## Files -/

/-- Whether the fault of a rule file is none of what it says. -/
inductive SourceFault.Unsaid : SourceFault → Prop
  | notData (fault : Yaml.Fault) : Unsaid (.notData fault)
  | badPath (fault : FileFault) : Unsaid (.badPath fault)
  | unmergeable (fault : MergeFault) : Unsaid (.unmergeable fault)
  | document {fault : DocumentFault} (unsaid : fault.Unsaid) : Unsaid (.document fault)

/-- What such a fault comes from: a scalar that does not fit its tag or data too deep to be read, a path that cannot be
looked up, documents that cannot be laid over each other, or an odd key or a long integer in what they come to. -/
inductive Tree.RulesEscape (room : Room) (t : Tree) : SourceFault → Prop
  | notData {path : Path} {octets : List UInt8} {text : List Char} {fault : Yaml.Fault}
      (opens : t.read path = .ok octets) (decodes : Text.Utf8.decode? octets = .ok text)
      (data : Yaml.read (room.yaml path) text = .error fault) : RulesEscape room t (.notData fault)
  | badPath {path : Path} {fault : FileFault}
      (lookup : t.read path = .error fault ∨ t.resolve path = .error fault ∨ t.has path = .error fault) :
      RulesEscape room t (.badPath fault)
  | unmergeable {base overlay : Entries} {fault : MergeFault} (merge : Entries.layOver base overlay = .error fault) :
      RulesEscape room t (.unmergeable fault)
  | document {merged : Entries} (fault : DocumentFault)
      (cause : RuleTable.HasLongInteger merged ∨ RuleTable.HasOddKey merged) : RulesEscape room t (.document fault)

namespace Tree

variable {room : Room} {t : Tree} {fault : SourceFault}

theorem rulesEscape_of_document {path : Path} (h : t.ruleDocument room path = .error fault)
    (hfault : fault.Unsaid) : RulesEscape room t fault := by
  unfold ruleDocument at h
  split at h
  · rename_i octets hread
    unfold documentOfOctets at h
    rw [Except.bind_eq_error_iff, Except.mapError_eq_error_iff] at h
    rcases h with ⟨_, -, rfl⟩ | ⟨text, htext, h⟩
    · cases hfault
    · rw [Except.mapError_eq_ok_iff] at htext
      split at h
      · cases h
        cases hfault
      · rename_i f _ hyaml
        cases h
        exact .notData hread htext hyaml
      · cases h
      · cases h
      · split at h
        · cases h
        · cases h
          cases hfault
  · rename_i hread
    cases h
    exact .badPath (Or.inl hread)
  · rename_i hread
    cases h
    exact .badPath (Or.inl hread)
  · cases h
    cases hfault

theorem rulesEscape_of_base {path : Path} {name : Text} (h : (t.library room).base path name = .error fault)
    (hfault : fault.Unsaid) : RulesEscape room t fault := by
  simp only [Library.base, Except.bind_eq_error_iff, Except.mapError_eq_error_iff] at h
  rcases h with ⟨f, hf, rfl⟩ | ⟨base, -, ⟨f, hf, rfl⟩ | ⟨found, -, h⟩⟩
  · simp only [Library.basePath] at hf
    split at hf
    · cases hf
    · exact .badPath (Or.inr (Or.inl hf))
  · exact .badPath (Or.inr (Or.inr hf))
  · split at h
    · cases h
    · cases h
      cases hfault

theorem rulesEscape_of_inherit {links : Nat} {path : Path} {document : Entries}
    (h : (t.library room).shelf.inherit links path document = .error fault) (hfault : fault.Unsaid) :
    RulesEscape room t fault := by
  induction links generalizing path document with
  | zero =>
      cases hbase : document.base? with
      | none =>
          rw [Shelf.inherit_of_base?_eq_none hbase] at h
          cases h
      | some v =>
          rw [Shelf.inherit_zero (by simp [hbase])] at h
          cases h
          cases hfault
  | succ links ih =>
      cases hbase : document.base? with
      | none =>
          rw [Shelf.inherit_of_base?_eq_none hbase] at h
          cases h
      | some v =>
          simp only [Shelf.inherit_succ hbase, Except.bind_eq_error_iff, Except.mapError_eq_error_iff] at h
          rcases h with h | ⟨name, -, h | ⟨base, -, h | ⟨next, -, h | ⟨below, -, f, hf, rfl⟩⟩⟩⟩
          · unfold baseName at h
            split at h
            · split at h
              · cases h
                cases hfault
              · cases h
            · cases h
              cases hfault
          · exact rulesEscape_of_base h hfault
          · exact rulesEscape_of_document h hfault
          · exact ih h
          · exact .unmergeable hf

theorem ruleTable_unsaid {path : Path} (h : t.ruleTable room path = .error fault) (hfault : fault.Unsaid) :
    RulesEscape room t fault := by
  simp only [ruleTable, Library.table, Except.bind_eq_error_iff, Except.mapError_eq_error_iff] at h
  rcases h with h | ⟨document, -, ⟨f, hf, rfl⟩ | ⟨source, -, h | ⟨merged, -, f, hf, rfl⟩⟩⟩
  · exact rulesEscape_of_document h hfault
  · exact .badPath (Or.inr (Or.inl hf))
  · exact rulesEscape_of_inherit h hfault
  · cases hfault with
    | document hunsaid => exact .document f (RuleTable.ofDocument_unsaid hf hunsaid)

end Tree

end TransitionAudit
