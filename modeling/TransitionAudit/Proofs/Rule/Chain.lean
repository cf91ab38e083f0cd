import TransitionAudit.Proofs.Rule.Document
import TransitionAudit.Rule.File
import Mathlib.Logic.Relation

/-!
# Documents over their bases

What a rule file comes to with all it inherits. A chain of at most ten links that ends in a file without a
base gives the documents laid over each other, the file that was asked for on top; under each heading the
rules are those of the nearest file that lists it. A chain that goes on, since it is longer or goes round, is
refused after ten links.
-/

namespace TransitionAudit

/-! ## Documents laid over each other -/

namespace Entries

/-- A document without the name of its base. -/
def own (document : Entries) : Entries := erase document (.text baseKey)

/-- A document laid over its bases, the nearest one first: what the bases come to among themselves, from
the farthest one on, with the document over it. -/
def laidOver (document : Entries) : List Entries → Except OrderFault Entries
  | [] => .ok document.own
  | base :: rest => do merge (← laidOver base rest) document.own

/-- What the first of some documents to list a heading has under it. -/
def nearest? (documents : List Entries) (heading : Text) : Option Value :=
  documents.findSome? fun document => document.listed? heading

theorem get?_own (document : Entries) (s : Text) :
    get? document.own s = if s = baseKey then none else get? document s := by
  induction document with
  | nil => simp [own, erase, get?_nil]
  | cons e document ih =>
      obtain ⟨k, v⟩ := e
      simp only [own, erase, List.filter_cons, Scalar.sameKey_text_right] at ih ⊢
      by_cases hk : k = .text baseKey
      · subst hk
        by_cases hs : s = baseKey
        · simpa [hs] using ih
        · simpa [hs, get?_cons, Ne.symm hs] using ih
      · by_cases hs : s = baseKey
        · simpa [hs, hk, get?_cons] using ih
        · simp only [hk, decide_false, Bool.not_false, ↓reduceIte, get?_cons, ih, hs]

theorem own_isTree {document : Entries} (h : (Value.map document).IsTree) :
    (Value.map document.own).IsTree := by
  have hsub : document.own.Sublist document := List.filter_sublist
  refine .map ⟨fun e he => h.keys.1 e (hsub.subset he), h.keys.2.sublist (hsub.map _)⟩ ?_
  exact fun e he => h.values e (hsub.subset he)

theorem own_listed? (document : Entries) (heading : Text) :
    document.own.listed? heading = document.listed? heading := by
  have hne : ("transitions" : Text) ≠ baseKey := by decide
  simp only [listed?, get?_own, hne, ↓reduceIte]

theorem PlainlyListed.own {document : Entries} (h : document.PlainlyListed) : document.own.PlainlyListed := by
  have hne : ("transitions" : Text) ≠ baseKey := by decide
  intro v hv
  rw [get?_own, if_neg hne] at hv
  exact h v hv

end Entries

/-! ## Listed rules -/

theorem RuleTable.entries?_of_itemsOf? {v : Value} {items : List Value}
    (h : RuleTable.itemsOf? v = some items) :
    v.entries? = none := by
  cases v with
  | map es => simp [RuleTable.itemsOf?, Value.items?] at h
  | cyclic l body =>
      cases body with
      | map es => simp [RuleTable.itemsOf?, Value.items?] at h
      | _ => rfl
  | _ => rfl

namespace Entries

/-- Lists of rules replace each other, so merged rows are those of the overlay and, under other headings,
those of the base. -/
theorem merge_plainRows {base overlay merged : Entries} (hbase : (Value.map base).IsTree)
    (hoverlay : (Value.map overlay).IsTree) (hplain : PlainRows base) (hplain' : PlainRows overlay)
    (h : merge base overlay = .ok merged) :
    PlainRows merged ∧ ∀ heading, get? merged heading = (get? overlay heading).or (get? base heading) := by
  obtain ⟨_, hmerge, htree, hnone, hsome⟩ := merge_ok hbase hoverlay
  obtain rfl := Except.ok.inj (h.symm.trans hmerge)
  have hget : ∀ heading, get? merged heading = (get? overlay heading).or (get? base heading) := by
    intro heading
    cases hv : get? overlay heading with
    | none => rw [hnone heading hv, Option.none_or]
    | some v =>
        obtain ⟨-, items, hitems⟩ := hplain' _ (mem_of_get? hv)
        obtain ⟨x, hx, hmerged⟩ := hsome heading v hv
        rw [Value.over_of_leaf (RuleTable.entries?_of_itemsOf? hitems)] at hx
        rw [hmerged, ← Except.ok.inj hx]
        rfl
  refine ⟨fun e he => ?_, hget⟩
  obtain ⟨heading, hkey⟩ := htree.keys.1 e he
  have hmem : get? merged heading = some e.2 := get?_of_mem htree.keys (hkey ▸ he)
  rw [hget heading] at hmem
  rcases Option.or_eq_some_iff.mp hmem with hv | ⟨-, hv⟩
  · exact hkey ▸ hplain' _ (mem_of_get? hv)
  · exact hkey ▸ hplain _ (mem_of_get? hv)

theorem merge_plainlyListed {base overlay merged : Entries} (hbase : (Value.map base).IsTree)
    (hoverlay : (Value.map overlay).IsTree) (hplain : PlainlyListed base) (hplain' : PlainlyListed overlay)
    (h : merge base overlay = .ok merged) :
    merged.PlainlyListed ∧
      ∀ heading, merged.listed? heading = (overlay.listed? heading).or (base.listed? heading) := by
  obtain ⟨_, hmerge, -, hnone, hsome⟩ := merge_ok hbase hoverlay
  obtain rfl := Except.ok.inj (h.symm.trans hmerge)
  cases hv : get? overlay "transitions" with
  | none =>
      have hsame := hnone _ hv
      exact ⟨fun v hv => hplain v (hsame ▸ hv), fun heading => by simp [listed?, hsame, hv]⟩
  | some v =>
      obtain ⟨rows, rfl, hrows⟩ := hplain' v hv
      obtain ⟨x, hx, hmerged⟩ := hsome _ _ hv
      cases hb : get? base "transitions" with
      | none =>
          rw [hb] at hx
          obtain rfl : x = .map rows := (Except.ok.inj hx).symm
          refine ⟨fun v hv => ?_, fun heading => by simp [listed?, hmerged, hv, hb, Value.entries?]⟩
          exact ⟨rows, Option.some.inj (hv.symm.trans hmerged), hrows⟩
      | some b =>
          obtain ⟨rows', rfl, hrows'⟩ := hplain b hb
          rw [hb, Value.over_map] at hx
          obtain ⟨both, hboth, -, -, -⟩ := merge_ok (hbase.get? hb) (hoverlay.get? hv)
          rw [hboth] at hx
          obtain rfl : x = .map both := (Except.ok.inj hx).symm
          obtain ⟨hplainBoth, hget⟩ := merge_plainRows (hbase.get? hb) (hoverlay.get? hv) hrows' hrows hboth
          refine ⟨fun v hv => ?_, fun heading => by simp [listed?, hmerged, hv, hb, Value.entries?, hget]⟩
          exact ⟨both, Option.some.inj (hv.symm.trans hmerged), hplainBoth⟩

/-- Trees can be laid over each other; the result names no base, and lists rules under each heading as
the nearest document does. -/
theorem laidOver_ok {document : Entries} {bases : List Entries}
    (htree : ∀ d ∈ document :: bases, (Value.map d).IsTree) :
    ∃ merged, laidOver document bases = .ok merged ∧ (Value.map merged).IsTree ∧ get? merged baseKey = none ∧
      ((∀ d ∈ document :: bases, d.PlainlyListed) →
        merged.PlainlyListed ∧ ∀ heading, merged.listed? heading = nearest? (document :: bases) heading) := by
  induction bases generalizing document with
  | nil =>
      refine ⟨document.own, rfl, own_isTree (htree document List.mem_cons_self), by simp [get?_own], ?_⟩
      intro hplain
      refine ⟨(hplain document List.mem_cons_self).own, fun heading => ?_⟩
      rw [own_listed?]
      cases hl : document.listed? heading <;> simp [nearest?, hl]
  | cons base bases ih =>
      obtain ⟨hdocument, hbases⟩ := List.forall_mem_cons.mp htree
      obtain ⟨below, hbelow, hbelowTree, hnone, hplainly⟩ := ih hbases
      obtain ⟨merged, hmerge, hmergedTree, hkept, -⟩ := merge_ok hbelowTree (own_isTree hdocument)
      refine ⟨merged, by rw [laidOver, hbelow]; exact hmerge, hmergedTree, ?_, ?_⟩
      · rw [hkept baseKey (by simp [get?_own]), hnone]
      · intro hplain
        obtain ⟨hfirst, hrest⟩ := List.forall_mem_cons.mp hplain
        obtain ⟨hbelowPlain, hlisted⟩ := hplainly hrest
        obtain ⟨hmergedPlain, hor⟩ :=
          merge_plainlyListed hbelowTree (own_isTree hdocument) hbelowPlain hfirst.own hmerge
        refine ⟨hmergedPlain, fun heading => ?_⟩
        rw [hor heading, own_listed?, hlisted heading]
        cases hl : document.listed? heading <;> simp [nearest?, List.findSome?_cons, hl]

end Entries

/-! ## Following bases -/

namespace Shelf

variable {s : Shelf}

/-- Whether a file with its document has another one as its base. -/
def Follows (s : Shelf) (file base : Path × Entries) : Prop :=
  ∃ v name, file.2.base? = some v ∧ baseName file.1 v = .ok name ∧ s.base file.1 name = .ok base.1 ∧
    s.document base.1 = .ok base.2

theorem Follows.base?_ne_none {file base : Path × Entries} (h : s.Follows file base) :
    file.2.base? ≠ none := by
  obtain ⟨v, -, hv, -⟩ := h
  simp [hv]

theorem inherit_of_base?_eq_none {path : Path} {document : Entries} (h : document.base? = none)
    (links : Nat) : s.inherit links path document = .ok document.own := by
  cases links <;> simp [inherit, h, Entries.own]

theorem inherit_zero {path : Path} {document : Entries} (h : document.base? ≠ none) :
    s.inherit 0 path document = .error .chainTooLong := by
  cases hv : document.base? with
  | none => exact absurd hv h
  | some v => simp [inherit, hv]

theorem inherit_succ {path : Path} {document : Entries} {v : Value} (h : document.base? = some v)
    (links : Nat) :
    s.inherit (links + 1) path document = (do
      let base ← s.base path (← baseName path v)
      let below ← s.inherit links base (← s.document base)
      (Entries.layOver below document.own).mapError .unmergeable) := by
  conv_lhs => unfold inherit
  rw [h]
  rfl

theorem inherit_of_follows {file base : Path × Entries} (h : s.Follows file base) (links : Nat) :
    s.inherit (links + 1) file.1 file.2 =
      (s.inherit links base.1 base.2).bind fun below =>
        (Entries.layOver below file.2.own).mapError .unmergeable := by
  obtain ⟨v, name, hv, hname, hbase, hdocument⟩ := h
  simp only [inherit_succ hv, hname, hbase, hdocument, bind, Except.bind]

/-- A chain that ends gives its documents laid over each other. -/
theorem inherit_chain {file : Path × Entries} {bases : List (Path × Entries)}
    (hchain : (file :: bases).IsChain s.Follows)
    (hend : ∀ last ∈ (file :: bases).getLast?, last.2.base? = none) {links : Nat} (hlen : bases.length ≤ links)
    (htree : ∀ f ∈ file :: bases, (Value.map f.2).IsTree) {merged : Entries}
    (hmerged : Entries.laidOver file.2 (bases.map (·.2)) = .ok merged) :
    s.inherit links file.1 file.2 = .ok merged := by
  induction bases generalizing file links merged with
  | nil =>
      rw [inherit_of_base?_eq_none (hend file rfl)]
      exact congrArg Except.ok (Except.ok.inj hmerged)
  | cons base bases ih =>
      obtain ⟨links, rfl⟩ : ∃ n, links = n + 1 := Nat.exists_eq_add_one.mpr (Nat.lt_of_lt_of_le (by simp) hlen)
      obtain ⟨hfile, hbases⟩ := List.forall_mem_cons.mp htree
      rw [List.isChain_cons_cons] at hchain
      have htrees : ∀ d ∈ base.2 :: bases.map (·.2), (Value.map d).IsTree := List.forall_mem_cons.mpr
        ⟨(List.forall_mem_cons.mp hbases).1, List.forall_mem_map.mpr (List.forall_mem_cons.mp hbases).2⟩
      obtain ⟨below, hbelow, -, -, -⟩ := Entries.laidOver_ok htrees
      have hinherit := ih hchain.2 (by simpa using hend) (Nat.le_of_succ_le_succ hlen) hbases hbelow
      rw [List.map_cons, Entries.laidOver, hbelow] at hmerged
      rw [inherit_of_follows hchain.1, hinherit]
      simp only [Except.bind]
      rw [Entries.layOver_eq_merge (Entries.own_isTree hfile)]
      have hmerge : Entries.merge below file.2.own = .ok merged := hmerged
      rw [hmerge]
      rfl

/-- A chain that goes on after all links is refused. -/
theorem inherit_tooLong {file : Path × Entries} {bases : List (Path × Entries)}
    (hchain : (file :: bases).IsChain s.Follows)
    (hend : ∀ last ∈ (file :: bases).getLast?, last.2.base? ≠ none) :
    s.inherit bases.length file.1 file.2 = .error .chainTooLong := by
  induction bases generalizing file with
  | nil => exact inherit_zero (hend file rfl)
  | cons base bases ih =>
      rw [List.isChain_cons_cons] at hchain
      rw [List.length_cons, inherit_of_follows hchain.1, ih hchain.2 (by simpa using hend)]
      rfl

/-- From a file that leads to a circle a chain can be followed as far as one likes. -/
theorem exists_chain_of_circle {file x : Path × Entries} (hreach : Relation.ReflTransGen s.Follows file x)
    (hcircle : Relation.TransGen s.Follows x x) (n : Nat) :
    ∃ bases : List (Path × Entries), bases.length = n ∧ (file :: bases).IsChain s.Follows ∧
      ∀ last ∈ (file :: bases).getLast?, last.2.base? ≠ none := by
  -- on the way to the circle, and on it, every file has a base from which the circle is reached
  have hstep : ∀ f, Relation.ReflTransGen s.Follows f x →
      ∃ base, s.Follows f base ∧ Relation.ReflTransGen s.Follows base x := by
    intro f hf
    rcases hf.cases_head with rfl | hhead
    · obtain ⟨base, hbase, hback⟩ := Relation.TransGen.head'_iff.mp hcircle
      exact ⟨base, hbase, hback⟩
    · exact hhead
  induction n generalizing file with
  | zero =>
      obtain ⟨base, hbase, -⟩ := hstep file hreach
      exact ⟨[], rfl, .singleton file, by simpa using hbase.base?_ne_none⟩
  | succ n ih =>
      obtain ⟨base, hbase, hback⟩ := hstep file hreach
      obtain ⟨bases, hlen, hchain, hend⟩ := ih hback
      exact ⟨base :: bases, by rw [List.length_cons, hlen], List.isChain_cons_cons.mpr ⟨hbase, hchain⟩,
        by simpa using hend⟩

theorem inherit_circle {file x : Path × Entries} (hreach : Relation.ReflTransGen s.Follows file x)
    (hcircle : Relation.TransGen s.Follows x x) (links : Nat) :
    s.inherit links file.1 file.2 = .error .chainTooLong := by
  obtain ⟨bases, hlen, hchain, hend⟩ := exists_chain_of_circle hreach hcircle links
  rw [← hlen]
  exact inherit_tooLong hchain hend

/-! ## Files that are read -/

/-- The bases that are read for a document of a file, the nearest one first. -/
def basesRead (s : Shelf) : Nat → Path → Entries → List Path
  | 0, _, _ => []
  | links + 1, path, document =>
    match document.base? with
    | none => []
    | some v =>
      match (baseName path v).bind (s.base path) with
      | .error _ => []
      | .ok base =>
        match s.document base with
        | .error _ => [base]
        | .ok below => base :: basesRead s links base below

theorem basesRead_length_le (links : Nat) (path : Path) (document : Entries) :
    (s.basesRead links path document).length ≤ links := by
  induction links generalizing path document with
  | zero => exact Nat.le_refl 0
  | succ links ih =>
      unfold basesRead
      split
      · exact Nat.zero_le _
      · split
        · exact Nat.zero_le _
        · split
          · exact Nat.succ_le_succ (Nat.zero_le _)
          · exact Nat.succ_le_succ (ih _ _)

/-- What a document comes to depends on no documents but those of the bases that are read. -/
theorem inherit_congr {document' : Path → Except SourceFault Entries} {links : Nat} {path : Path}
    {document : Entries} (h : ∀ p ∈ s.basesRead links path document, document' p = s.document p) :
    Shelf.inherit ⟨document', s.base⟩ links path document = s.inherit links path document := by
  induction links generalizing path document with
  | zero => cases hv : document.base? <;> simp [inherit, hv]
  | succ links ih =>
      cases hv : document.base? with
      | none => simp [inherit, hv]
      | some v =>
          simp only [basesRead, hv] at h
          rw [inherit_succ hv, inherit_succ hv]
          cases hname : baseName path v with
          | error fault => rfl
          | ok name =>
              simp only [hname, Except.bind] at h
              simp only [bind, Except.bind]
              cases hbase : s.base path name with
              | error fault => rfl
              | ok base =>
                  simp only [hbase] at h
                  cases hdocument : s.document base with
                  | error fault =>
                      simp only [hdocument, List.mem_singleton, forall_eq] at h
                      simp only [h, hdocument]
                  | ok below =>
                      simp only [hdocument, List.forall_mem_cons] at h
                      simp only [h.1, hdocument, ih h.2]

end Shelf

end TransitionAudit
