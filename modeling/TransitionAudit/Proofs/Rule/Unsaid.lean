import TransitionAudit.Proofs.Data.Clash
import TransitionAudit.Proofs.Rule.Fault
import TransitionAudit.Proofs.Rule.Inheritance

/-!
# Rule files that end without a word about them

A document or a rule file is read, or the fault is one of what it says, unless the reading comes to something that it
cannot deal with: an integer that is too long, a rule with a key that is no text, mappings that clash, a path that
cannot be looked up. The reading fails at the first fault, so what comes before has to be read.
-/

namespace TransitionAudit

/-! ## Rules -/

namespace Rule

theorem keyTexts_of_odd {keys : List Scalar} (h : ∃ key ∈ keys, ∀ s, key ≠ .text s) (index : Nat) :
    ∃ place key, keyTexts index keys = .error (.keyNotText place key) := by
  induction keys generalizing index with
  | nil => simp at h
  | cons key keys ih =>
      cases key with
      | text s =>
          have hrest : ∃ key ∈ keys, ∀ s, key ≠ .text s := by simpa using h
          obtain ⟨place, key, hkey⟩ := ih hrest (index + 1)
          exact ⟨place, key, by simp only [keyTexts, hkey, Except.map]⟩
      | _ => exact ⟨index, _, rfl⟩

theorem unlisted_of_odd {item : Entries} (h : ∃ e ∈ item, ∀ s, e.1 ≠ .text s) :
    ∃ fault, ofEntries item = .error fault ∧ fault.Unlisted := by
  obtain ⟨e, he, hodd⟩ := h
  -- the odd key is one of those that are unknown, which either cannot be sorted or cannot be listed
  have hunknown : isDocumentKey e.1 = false := by
    simp [isDocumentKey, Scalar.sameKey_text_right, hodd]
  let unknown := (item.map (·.1)).filter fun key => !isDocumentKey key
  have hmem : e.1 ∈ unknown := List.mem_filter.mpr ⟨List.mem_map_of_mem he, by simp [hunknown]⟩
  cases hsorted : sortEntries (unknown.map fun key => (key, ())) with
  | error fault =>
      refine ⟨.unsortedKeys fault, ?_, .unsortedKeys fault⟩
      simp only [unknown] at hsorted
      simp only [ofEntries, noUnknownKeys, hsorted, Except.mapError, bind, Except.bind]
  | ok sorted =>
      have hperm := perm_of_sortEntries hsorted
      have hkeys : ∃ key ∈ sorted.map (·.1), ∀ s, key ≠ .text s :=
        ⟨e.1, List.mem_map.mpr ⟨(e.1, ()), hperm.mem_iff.mpr (List.mem_map_of_mem hmem), rfl⟩, hodd⟩
      obtain ⟨place, key, hkey⟩ := keyTexts_of_odd hkeys 0
      refine ⟨.keyNotText place key, ?_, .keyNotText place key⟩
      simp only [unknown] at hsorted
      simp only [ofEntries, noUnknownKeys, hsorted, hkey, Except.mapError, bind, Except.bind]

theorem unlisted_iff_hasOddKey {item : Value} :
    (∃ fault, ofItem item = .error fault ∧ fault.Unlisted) ↔ item.HasOddKey := by
  constructor
  · rintro ⟨fault, hfault, hunlisted⟩
    exact hasOddKey_of_unlisted hfault hunlisted
  · rintro ⟨es, hes, hodd⟩
    have hitem : ofItem item = ofEntries es := by
      cases item with
      | scalar s => cases hes
      | _ => simp only [ofItem, hes, Option.elim]
    rw [hitem]
    exact unlisted_of_odd hodd

end Rule

/-! ## Documents -/

namespace RuleTable

/-- Whether the rules listed in a value come to one with an odd key, after rules that are read. -/
def ListsOdd (items : List Value) : Prop :=
  ∃ first item rest, items = first ++ item :: rest ∧ (∀ i ∈ first, ∃ r, Rule.ofItem i = .ok r) ∧ item.HasOddKey

theorem listsOdd_cons_iff {item : Value} {items : List Value} :
    ListsOdd (item :: items) ↔ item.HasOddKey ∨ (∃ r, Rule.ofItem item = .ok r) ∧ ListsOdd items := by
  constructor
  · rintro ⟨first, odd, rest, hitems, hfirst, hodd⟩
    cases first with
    | nil =>
        obtain ⟨rfl, -⟩ := List.cons.inj hitems
        exact .inl hodd
    | cons i first =>
        obtain ⟨rfl, rfl⟩ := List.cons.inj hitems
        obtain ⟨hi, hfirst⟩ := List.forall_mem_cons.mp hfirst
        exact .inr ⟨hi, first, odd, rest, rfl, hfirst, hodd⟩
  · rintro (hodd | ⟨hitem, first, odd, rest, rfl, hfirst, hodd⟩)
    · exact ⟨[], item, items, rfl, by simp, hodd⟩
    · exact ⟨item :: first, odd, rest, rfl, List.forall_mem_cons.mpr ⟨hitem, hfirst⟩, hodd⟩

theorem readRules_unsaid_iff {heading : Text} {index : Nat} {items : List Value} :
    (∃ fault, readRules heading index items = .error fault ∧ fault.Unsaid) ↔ ListsOdd items := by
  induction items generalizing index with
  | nil => simp [readRules, ListsOdd]
  | cons item items ih =>
      rw [listsOdd_cons_iff, ← Rule.unlisted_iff_hasOddKey, ← @ih (index + 1)]
      simp only [readRules, Except.bind_eq_error_iff, Except.mapError_eq_error_iff, Except.mapError_eq_ok_iff,
        Except.pure_ne_error, and_false, exists_false, or_false]
      constructor
      · rintro ⟨_, ⟨fault, hfault, rfl⟩ | ⟨r, hr, hrest⟩, hunsaid⟩
        · cases hunsaid with
          | item _ hunlisted => exact .inl ⟨fault, hfault, hunlisted⟩
        · exact .inr ⟨⟨r, hr⟩, _, hrest, hunsaid⟩
      · rintro (⟨fault, hfault, hunlisted⟩ | ⟨⟨r, hr⟩, fault, hrest, hunsaid⟩)
        · exact ⟨_, .inl ⟨fault, hfault, rfl⟩, .item _ hunlisted⟩
        · exact ⟨fault, .inr ⟨r, hr, hrest⟩, hunsaid⟩

/-- Whether one row of a document cannot be dealt with: its key is too long, or it is a heading over an odd rule. -/
inductive RowBreaks (key : Scalar) (v : Value) : Prop
  | heading (long : key.isWritable = false)
  | item {heading : Text} {items : List Value} (reads : headingOf key = .ok heading)
      (known : isHeading heading = true) (lists : itemsOf? v = some items) (odd : ListsOdd items)

theorem readRow_unsaid_iff {key : Scalar} {v : Value} :
    (∃ fault, readRow key v = .error fault ∧ fault.Unsaid) ↔ RowBreaks key v := by
  cases hwritable : key.isWritable with
  | false =>
      refine iff_of_true ⟨.unwritable, ?_, .unwritable⟩ (.heading hwritable)
      simp only [readRow, headingOf, hwritable, Bool.false_eq_true, if_false, bind, Except.bind]
  | true =>
      have hreads : headingOf key = .ok (Text.strip key.plain) := by simp only [headingOf, hwritable, if_true]
      simp only [readRow, hreads, bind, Except.bind]
      constructor
      · rintro ⟨fault, hfault, hunsaid⟩
        cases hknown : isHeading (Text.strip key.plain) with
        | false =>
            simp only [hknown, Bool.not_false, if_true] at hfault
            cases hfault
            cases hunsaid
        | true =>
            simp only [hknown, Bool.not_true, Bool.false_eq_true, if_false] at hfault
            cases hlists : itemsOf? v with
            | none =>
                rw [hlists] at hfault
                cases hfault
                cases hunsaid
            | some items =>
                simp only [hlists] at hfault
                cases hrules : readRules (Text.strip key.plain) 0 items with
                | ok rules =>
                    rw [hrules] at hfault
                    cases hfault
                | error fault' =>
                    rw [hrules] at hfault
                    cases hfault
                    exact .item hreads hknown hlists (readRules_unsaid_iff.mp ⟨fault, hrules, hunsaid⟩)
      · rintro (long | ⟨hreads', hknown, hlists, hodd⟩)
        · rw [long] at hwritable
          cases hwritable
        · obtain rfl := Except.ok.inj (hreads.symm.trans hreads')
          obtain ⟨fault, hrules, hunsaid⟩ := (@readRules_unsaid_iff (Text.strip key.plain) 0 _).mpr hodd
          exact ⟨fault, by simp [hknown, hlists, hrules], hunsaid⟩

/-- Whether a document cannot be dealt with: its version is too long, or one of its rows breaks after rows that are
read. -/
inductive Breaks (document : Entries) : Prop
  | version {v : Value} (found : Entries.get? document "schema_version" = some v) (long : v.isWritable = false)
  | row {before after : Entries} {key : Scalar} {v : Value} (version : versionOf document = .ok documentVersion)
      (rows : rowsOf document = .ok (before ++ (key, v) :: after))
      (readable : ∀ e ∈ before, ∃ row, readRow e.1 e.2 = .ok row) (breaks : RowBreaks key v)

theorem eq_of_rowsOf_eq_error {document : Entries} {fault : DocumentFault} (h : rowsOf document = .error fault) :
    fault = .transitionsNotMapping := by
  unfold rowsOf at h
  split at h
  · cases h
  · cases h
  · rename_i v _ _
    cases hes : v.entries? with
    | none =>
        rw [hes] at h
        cases h
        rfl
    | some es =>
        rw [hes] at h
        cases h

theorem ofDocument_unsaid_iff {document : Entries} {source : Option Text} :
    (∃ fault, ofDocument document source = .error fault ∧ fault.Unsaid) ↔ Breaks document := by
  constructor
  · rintro ⟨fault, hfault, hunsaid⟩
    rw [ofDocument, Except.bind_eq_error_iff] at hfault
    rcases hfault with hversion | ⟨version, hversion, hfault⟩
    · unfold versionOf at hversion
      split at hversion
      · cases hversion
      · rename_i v hv
        split at hversion
        · cases hversion
        · rename_i hwritable
          exact .version hv (by simpa using hwritable)
    · split at hfault
      · cases hfault
        cases hunsaid
      · rename_i hsame
        obtain rfl := not_not.mp hsame
        simp only [Except.bind_eq_error_iff, Except.pure_ne_error, and_false, exists_false, or_false] at hfault
        rcases hfault with hrows | ⟨rows, hrows, hread⟩
        · rw [eq_of_rowsOf_eq_error hrows] at hunsaid
          cases hunsaid
        · obtain ⟨before, ⟨key, v⟩, after, rfl, hbefore, hrow⟩ := Except.mapM_eq_error_iff.mp hread
          exact .row hversion hrows hbefore (readRow_unsaid_iff.mp ⟨fault, hrow, hunsaid⟩)
  · intro hbreaks
    cases hbreaks with
    | version found long =>
        refine ⟨.unwritable, ?_, .unwritable⟩
        simp only [ofDocument, versionOf, found, long, Bool.false_eq_true, if_false, bind, Except.bind]
    | @row before after key v version rows readable breaks =>
        obtain ⟨fault, hrow, hunsaid⟩ := readRow_unsaid_iff.mpr breaks
        refine ⟨fault, ?_, hunsaid⟩
        rw [ofDocument, Except.bind_eq_error_iff]
        refine .inr ⟨_, version, ?_⟩
        rw [if_neg (not_not.mpr rfl), Except.bind_eq_error_iff]
        refine .inr ⟨_, rows, Except.bind_eq_error_iff.mpr (.inl ?_)⟩
        exact Except.mapM_eq_error_iff.mpr ⟨before, (key, v), after, rfl, readable, hrow⟩

end RuleTable

/-! ## Chains of bases -/

namespace Library

variable {l : Library}

/-- Whether the chain of a document cannot be dealt with as far as it is followed: a base cannot be looked up or
its document cannot be dealt with, or what a base comes to collides with the document that names it. -/
inductive ChainBreaks (l : Library) : Nat → Path × Entries → Prop
  | lookup {links : Nat} {path : Path} {document : Entries} {name : Text} {fault : FileFault}
      (named : document.base? = some (.scalar (.text name))) (nonblank : Text.strip name ≠ [])
      (fails : l.basePath path name = .error fault ∨
        ∃ base, l.basePath path name = .ok base ∧ l.has base = .error fault) :
      ChainBreaks l (links + 1) (path, document)
  | unread {links : Nat} {path base : Path} {document : Entries} {name : Text} {fault : SourceFault}
      (named : document.base? = some (.scalar (.text name))) (nonblank : Text.strip name ≠ [])
      (found : l.basePath path name = .ok base) (there : l.has base = .ok true)
      (fails : l.document base = .error fault) (unsaid : fault.Unsaid) : ChainBreaks l (links + 1) (path, document)
  | above {links : Nat} {file base : Path × Entries} (link : l.Link file base) (breaks : ChainBreaks l links base) :
      ChainBreaks l (links + 1) file
  | collision {links : Nat} {file base : Path × Entries} {below : Entries} (link : l.Link file base)
      (inherits : l.shelf.inherit links base.1 base.2 = .ok below) (collides : Entries.Collides below file.2.own) :
      ChainBreaks l (links + 1) file

theorem base_unsaid_iff {path : Path} {name : Text} :
    (∃ fault, l.base path name = .error fault ∧ fault.Unsaid) ↔ ∃ fault, l.basePath path name = .error fault ∨
      ∃ base, l.basePath path name = .ok base ∧ l.has base = .error fault := by
  simp only [Library.base, Except.bind_eq_error_iff, Except.mapError_eq_error_iff, Except.mapError_eq_ok_iff]
  constructor
  · rintro ⟨_, ⟨f, hf, rfl⟩ | ⟨base, hbase, ⟨f, hf, rfl⟩ | ⟨there, -, h⟩⟩, hunsaid⟩
    · exact ⟨f, .inl hf⟩
    · exact ⟨f, .inr ⟨base, hbase, hf⟩⟩
    · cases there with
      | true => cases h
      | false =>
          cases h
          cases hunsaid
  · rintro ⟨f, hf | ⟨base, hbase, hf⟩⟩
    · exact ⟨.badPath f, .inl ⟨f, hf, rfl⟩, .badPath f⟩
    · exact ⟨.badPath f, .inr ⟨base, hbase, .inl ⟨f, hf, rfl⟩⟩, .badPath f⟩

theorem eq_of_baseName_eq_error {path : Path} {v : Value} {fault : SourceFault}
    (h : baseName path v = .error fault) : fault = .badBase path.text := by
  unfold baseName at h
  split at h
  · split at h
    · cases h
      rfl
    · cases h
  · cases h
    rfl

theorem exists_base_of_inherit_eq_error {links : Nat} {file : Path × Entries} {fault : SourceFault}
    (h : l.shelf.inherit links file.1 file.2 = .error fault) : ∃ v, file.2.base? = some v := by
  cases hbase : file.2.base? with
  | none =>
      rw [Shelf.inherit_of_base?_eq_none hbase] at h
      cases h
  | some v => exact ⟨v, rfl⟩

theorem chainBreaks_of_unsaid {links : Nat} {file : Path × Entries} {fault : SourceFault}
    (h : l.shelf.inherit links file.1 file.2 = .error fault) (hunsaid : fault.Unsaid) : ChainBreaks l links file := by
  induction links generalizing file with
  | zero =>
      obtain ⟨v, hbase⟩ := exists_base_of_inherit_eq_error h
      rw [Shelf.inherit_zero (by simp [hbase])] at h
      cases h
      cases hunsaid
  | succ links ih =>
      obtain ⟨v, hbase⟩ := exists_base_of_inherit_eq_error h
      simp only [Shelf.inherit_succ hbase, Except.bind_eq_error_iff, Except.mapError_eq_error_iff] at h
      -- the steps of a link come one after the other; the chain goes on only after the last of them
      rcases h with hname | ⟨name, hname, h⟩
      · rw [eq_of_baseName_eq_error hname] at hunsaid
        cases hunsaid
      obtain ⟨rfl, hnonblank⟩ := Shelf.baseName_eq_ok_iff.mp hname
      rcases h with hfound | ⟨base, hfound, h⟩
      · obtain ⟨f, hf⟩ := base_unsaid_iff.mp ⟨fault, hfound, hunsaid⟩
        exact .lookup hbase hnonblank hf
      obtain ⟨hpath, hthere⟩ := base_eq_ok_iff.mp hfound
      rcases h with hreads | ⟨document, hreads, h⟩
      · exact .unread hbase hnonblank hpath hthere hreads hunsaid
      have hlink : l.Link file (base, document) := ⟨name, hbase, hnonblank, hpath, hthere, hreads⟩
      rcases h with hbelow | ⟨below, hinherits, f, hf, rfl⟩
      · exact .above hlink (ih hbelow)
      · exact .collision hlink hinherits (Entries.exists_layOver_error_iff.mp ⟨f, hf⟩)

theorem exists_unsaid_of_chainBreaks {links : Nat} {file : Path × Entries} (h : ChainBreaks l links file) :
    ∃ fault, l.shelf.inherit links file.1 file.2 = .error fault ∧ fault.Unsaid := by
  induction h with
  | lookup named nonblank fails =>
      obtain ⟨fault, hfault, hunsaid⟩ := base_unsaid_iff.mpr ⟨_, fails⟩
      refine ⟨fault, ?_, hunsaid⟩
      simp only [Shelf.inherit_succ named, Except.bind_eq_error_iff]
      exact .inr ⟨_, Shelf.baseName_eq_ok_iff.mpr ⟨rfl, nonblank⟩, .inl hfault⟩
  | unread named nonblank found there fails unsaid =>
      refine ⟨_, ?_, unsaid⟩
      simp only [Shelf.inherit_succ named, Except.bind_eq_error_iff]
      exact .inr ⟨_, Shelf.baseName_eq_ok_iff.mpr ⟨rfl, nonblank⟩,
        .inr ⟨_, base_eq_ok_iff.mpr ⟨found, there⟩, .inl fails⟩⟩
  | above link breaks ih =>
      obtain ⟨fault, hfault, hunsaid⟩ := ih
      refine ⟨fault, ?_, hunsaid⟩
      rw [Shelf.inherit_of_follows (follows_iff_link.mpr link), hfault]
      rfl
  | collision link inherits collides =>
      obtain ⟨f, hf⟩ := Entries.exists_layOver_error_iff.mpr collides
      refine ⟨.unmergeable f, ?_, .unmergeable f⟩
      rw [Shelf.inherit_of_follows (follows_iff_link.mpr link), inherits, Except.bind, hf]
      rfl

theorem inherit_unsaid_iff {links : Nat} {file : Path × Entries} :
    (∃ fault, l.shelf.inherit links file.1 file.2 = .error fault ∧ fault.Unsaid) ↔ ChainBreaks l links file :=
  ⟨fun ⟨_, hfault, hunsaid⟩ => chainBreaks_of_unsaid hfault hunsaid, exists_unsaid_of_chainBreaks⟩

/-- Whether a rule file cannot be dealt with: its own document or its place, the chain of its bases, or the document
that they come to. -/
inductive Breaks (l : Library) (path : Path) : Prop
  | unread {fault : SourceFault} (fails : l.document path = .error fault) (unsaid : fault.Unsaid)
  | unplaced {document : Entries} {fault : FileFault} (reads : l.document path = .ok document)
      (fails : l.resolve path = .error fault)
  | chain {document : Entries} {source : Path} (reads : l.document path = .ok document)
      (place : l.resolve path = .ok source) (breaks : ChainBreaks l maxLinks (source, document))
  | merged {document merged : Entries} {source : Path} (reads : l.document path = .ok document)
      (place : l.resolve path = .ok source) (inherits : l.shelf.inherit maxLinks source document = .ok merged)
      (breaks : RuleTable.Breaks merged)

theorem table_unsaid_iff {path : Path} :
    (∃ fault, l.table path = .error fault ∧ fault.Unsaid) ↔ l.Breaks path := by
  simp only [table, Except.bind_eq_error_iff, Except.mapError_eq_error_iff, Except.mapError_eq_ok_iff]
  constructor
  · rintro ⟨fault, hfault, hunsaid⟩
    rcases hfault with hfault | ⟨document, hdocument, hfault⟩
    · exact .unread hfault hunsaid
    rcases hfault with ⟨f, hf, rfl⟩ | ⟨source, hsource, hfault⟩
    · exact .unplaced hdocument hf
    rcases hfault with hfault | ⟨merged, hmerged, f, hf, rfl⟩
    · exact .chain hdocument hsource (inherit_unsaid_iff.mp ⟨fault, hfault, hunsaid⟩)
    cases hunsaid with
    | document hunsaid =>
        exact .merged hdocument hsource hmerged (RuleTable.ofDocument_unsaid_iff.mp ⟨f, hf, hunsaid⟩)
  · intro hbreaks
    cases hbreaks with
    | unread fails unsaid => exact ⟨_, .inl fails, unsaid⟩
    | unplaced reads fails => exact ⟨_, .inr ⟨_, reads, .inl ⟨_, fails, rfl⟩⟩, .badPath _⟩
    | chain reads place breaks =>
        obtain ⟨fault, hfault, hunsaid⟩ := inherit_unsaid_iff.mpr breaks
        exact ⟨fault, .inr ⟨_, reads, .inr ⟨_, place, .inl hfault⟩⟩, hunsaid⟩
    | @merged document merged source reads place inherits breaks =>
        obtain ⟨fault, hfault, hunsaid⟩ := (@RuleTable.ofDocument_unsaid_iff merged (some source.text)).mpr breaks
        exact ⟨_, .inr ⟨_, reads, .inr ⟨_, place, .inr ⟨_, inherits, fault, hfault, rfl⟩⟩⟩, .document hunsaid⟩

end Library

/-! ## Files in a tree -/

/-- Whether the document of a file cannot be dealt with: its path has no octets, a scalar does not fit its tag, or the
data is too deep to be read. -/
inductive Tree.DocumentBreaks (room : Room) (t : Tree) (path : Path) : Prop
  | nul (use : PathUse) (reads : t.read path = .error (.nul use))
  | notEncodable (fault : Text.Utf8.SurrogateFault) (reads : t.read path = .error (.notEncodable fault))
  | notData {octets : List UInt8} {text : List Char} {fault : Yaml.Fault} (reads : t.read path = .ok octets)
      (decodes : Text.Utf8.decode? octets = .ok text) (data : Yaml.read (room.yaml path) text = .error fault)
      (fits : fault ≠ .malformed)

theorem Tree.ruleDocument_unsaid_iff {room : Room} {t : Tree} {path : Path} :
    (∃ fault, t.ruleDocument room path = .error fault ∧ fault.Unsaid) ↔ DocumentBreaks room t path := by
  constructor
  · rintro ⟨fault, hfault, hunsaid⟩
    unfold ruleDocument at hfault
    split at hfault
    · rename_i octets hreads
      rw [documentOfOctets, Except.bind_eq_error_iff, Except.mapError_eq_error_iff] at hfault
      rcases hfault with ⟨_, -, rfl⟩ | ⟨text, htext, hfault⟩
      · cases hunsaid
      · rw [Except.mapError_eq_ok_iff] at htext
        split at hfault
        · cases hfault
          cases hunsaid
        · rename_i f hne hyaml
          exact .notData hreads htext hyaml fun h => hne h
        · cases hfault
        · cases hfault
        · split at hfault
          · cases hfault
          · cases hfault
            cases hunsaid
    · rename_i use hreads
      exact .nul use hreads
    · rename_i f hreads
      exact .notEncodable f hreads
    · cases hfault
      cases hunsaid
  · intro hbreaks
    cases hbreaks with
    | nul use reads => exact ⟨_, by simp only [ruleDocument, reads], .badPath (.nul use)⟩
    | notEncodable f reads => exact ⟨_, by simp only [ruleDocument, reads], .badPath (.notEncodable f)⟩
    | @notData octets text fault reads decodes data fits =>
        refine ⟨.notData fault, ?_, .notData fault⟩
        simp only [ruleDocument, reads, documentOfOctets, decodes, Except.mapError, bind, Except.bind]
        cases fault with
        | malformed => exact absurd rfl fits
        | _ => simp only [data]; rfl

/-- A document is read, or its fault is one of what it says, unless it breaks: its version is an integer that is too
long, or after rows that are read comes a heading that is one, or a rule with a key that is no text. Where no
document on the way breaks, a rule file ends without a word only if a path cannot be looked up, if what a base comes
to collides with the document that names it, or if the document that all come to breaks. -/
theorem unsaid_iff_breaks (document : Entries) (source : Option Text) (l : Library) (room : Room) (t : Tree)
    (path : Path) :
    ((∃ fault, RuleTable.ofDocument document source = .error fault ∧ fault.Unsaid) ↔ RuleTable.Breaks document) ∧
      ((∃ fault, l.table path = .error fault ∧ fault.Unsaid) ↔ l.Breaks path) ∧
      ((∃ fault, t.ruleDocument room path = .error fault ∧ fault.Unsaid) ↔ Tree.DocumentBreaks room t path) :=
  ⟨RuleTable.ofDocument_unsaid_iff, Library.table_unsaid_iff, Tree.ruleDocument_unsaid_iff⟩

namespace RuleTable

/-- A document whose only rule has an integer as one of its keys. -/
def numberedKey : Entries :=
  [(.text "transitions", .map [(.text "ALL", .list
    [.map [(.text "check", .scalar (.text "wm_trace_not_empty")), (.int 1, .scalar (.text "x"))]])])]

/-- The key is unknown, but the list of unknown keys cannot be written. -/
theorem ofDocument_numberedKey :
    ∃ fault, ofDocument numberedKey none = .error fault ∧ fault.Unsaid := by
  have hfault : ofDocument numberedKey none = .error (.item ⟨"ALL", 0⟩ (.keyNotText 0 (.int 1))) := by cbv
  exact ⟨_, hfault, .item _ (.keyNotText 0 (.int 1))⟩

end RuleTable

end TransitionAudit
