import TransitionAudit.Proofs.Rule.Chain
import TransitionAudit.Rule.File
import Mathlib

/-!
# Tables of files with bases

The rule table of a file in a library. At most eleven documents are read for it. A chain of at most ten
links that ends gives the table of its documents laid over each other; after ten links no further one is
followed.
-/

namespace TransitionAudit

theorem Shelf.baseName_eq_ok_iff {path : Path} {v : Value} {name : Text} :
    baseName path v = .ok name ↔ v = .scalar (.text name) ∧ Text.strip name ≠ [] := by
  unfold baseName
  split
  · rename_i s
    by_cases hs : Text.strip s = []
    · have hne : s = name → Text.strip name = [] := fun h => h ▸ hs
      simpa [hs] using hne
    · have hname : s = name → Text.strip name ≠ [] := fun h => h ▸ hs
      simpa [hs] using hname
  · rename_i hscalar
    have hne : v ≠ .scalar (.text name) := hscalar name
    simp [hne]

namespace Library

variable {l : Library}

/-! ## Links between files -/

/-- Whether a file with its document names another one as its base, which is there and has the document
it stands with. -/
def Link (l : Library) (file base : Path × Entries) : Prop :=
  ∃ name, file.2.base? = some (.scalar (.text name)) ∧ Text.strip name ≠ [] ∧
    l.basePath file.1 name = .ok base.1 ∧ l.has base.1 = .ok true ∧ l.document base.1 = .ok base.2

theorem base_eq_ok_iff {path base : Path} {name : Text} :
    l.base path name = .ok base ↔ l.basePath path name = .ok base ∧ l.has base = .ok true := by
  simp only [Library.base, Except.bind_eq_ok_iff, Except.mapError_eq_ok_iff]
  constructor
  · rintro ⟨p, hpath, there, hhas, h⟩
    cases there with
    | false => cases h
    | true =>
        obtain rfl := Except.ok.inj h
        exact ⟨hpath, hhas⟩
  · rintro ⟨hpath, hhas⟩
    exact ⟨base, hpath, true, hhas, rfl⟩

theorem follows_iff_link {file base : Path × Entries} : l.shelf.Follows file base ↔ l.Link file base := by
  constructor
  · rintro ⟨v, name, hv, hname, hbase, hdocument⟩
    obtain ⟨rfl, hne⟩ := Shelf.baseName_eq_ok_iff.mp hname
    obtain ⟨hpath, hhas⟩ := base_eq_ok_iff.mp hbase
    exact ⟨name, hv, hne, hpath, hhas, hdocument⟩
  · rintro ⟨name, hv, hne, hpath, hhas, hdocument⟩
    exact ⟨_, name, hv, Shelf.baseName_eq_ok_iff.mpr ⟨rfl, hne⟩, base_eq_ok_iff.mpr ⟨hpath, hhas⟩, hdocument⟩

theorem follows_eq_link : l.shelf.Follows = l.Link := by
  funext file base
  exact propext follows_iff_link

/-! ## Files that are read -/

/-- The files that are read for a table. -/
def filesRead (l : Library) (path : Path) : List Path :=
  path ::
    match l.document path, l.resolve path with
    | .ok document, .ok source => l.shelf.basesRead maxLinks source document
    | _, _ => []

theorem filesRead_length_le (path : Path) : (l.filesRead path).length ≤ 11 := by
  unfold filesRead
  split
  · exact Nat.succ_le_succ (Shelf.basesRead_length_le maxLinks _ _)
  · exact Nat.succ_le_succ (Nat.zero_le 10)

theorem table_congr {document' : Path → Except SourceFault Entries} {path : Path}
    (h : ∀ p ∈ l.filesRead path, document' p = l.document p) :
    Library.table ⟨document', l.has, l.resolve⟩ path = l.table path := by
  obtain ⟨hpath, hbases⟩ := List.forall_mem_cons.mp h
  unfold Library.table
  simp only [hpath, bind, Except.bind]
  cases hdocument : l.document path with
  | error fault => rfl
  | ok document =>
      cases hsource : l.resolve path with
      | error fault => rfl
      | ok source =>
          simp only [hdocument, hsource] at hbases
          have hinherit : Shelf.inherit (Library.shelf ⟨document', l.has, l.resolve⟩) maxLinks source document =
              l.shelf.inherit maxLinks source document := Shelf.inherit_congr hbases
          simp only [Except.mapError, hinherit]

/-! ## Tables -/

theorem table_of_inherit {path source : Path} {document merged : Entries}
    (hdocument : l.document path = .ok document)
    (hsource : l.resolve path = .ok source) (h : l.shelf.inherit maxLinks source document = .ok merged) :
    l.table path = (RuleTable.ofDocument merged (some source.text)).mapError .document := by
  simp only [Library.table, hdocument, hsource, Except.mapError, bind, Except.bind, h]

theorem table_of_inherit_error {path source : Path} {document : Entries} {fault : SourceFault}
    (hdocument : l.document path = .ok document) (hsource : l.resolve path = .ok source)
    (h : l.shelf.inherit maxLinks source document = .error fault) : l.table path = .error fault := by
  simp only [Library.table, hdocument, hsource, Except.mapError, bind, Except.bind, h]

/-- Whether files with their documents, the first one on top, are a chain of links to its end. -/
structure IsWholeChain (l : Library) (files : List (Path × Entries)) : Prop where
  links : files.IsChain l.Link
  ends : ∀ last ∈ files.getLast?, last.2.base? = none

/-- What a table of a file is: eleven documents at most decide it, a chain of ten links or less gives the
table of the documents laid over each other, with the rules that the nearest one lists under each heading,
and a chain that is longer or goes round gives none. -/
theorem table_of_links (l : Library) (path : Path) :
    ((l.filesRead path).length ≤ 11 ∧
      ∀ document', (∀ p ∈ l.filesRead path, document' p = l.document p) →
        Library.table ⟨document', l.has, l.resolve⟩ path = l.table path) ∧
    ∀ source document, l.resolve path = .ok source → l.document path = .ok document →
      (∀ bases, l.IsWholeChain ((source, document) :: bases) → bases.length ≤ 10 →
        (∀ file ∈ (source, document) :: bases, (Value.map file.2).IsTree) →
        ∃ merged, Entries.laidOver document (bases.map (·.2)) = .ok merged ∧
          Entries.get? merged baseKey = none ∧
          l.table path = (RuleTable.ofDocument merged (some source.text)).mapError .document ∧
          ((∀ file ∈ (source, document) :: bases, file.2.PlainlyListed) →
            ((∃ table, l.table path = .ok table) ↔
              RuleTable.versionOf merged = .ok documentVersion ∧
                RuleTable.ListsReadable (Entries.nearest? (document :: bases.map (·.2)))) ∧
            ∀ table, l.table path = .ok table →
              table.HoldsListed (Entries.nearest? (document :: bases.map (·.2))))) ∧
      (∀ bases, ((source, document) :: bases).IsChain l.Link → bases.length = 10 →
        (∀ last ∈ ((source, document) :: bases).getLast?, last.2.base? ≠ none) →
        l.table path = .error .chainTooLong) ∧
      (∀ file, Relation.ReflTransGen l.Link (source, document) file → Relation.TransGen l.Link file file →
        l.table path = .error .chainTooLong) := by
  refine ⟨⟨filesRead_length_le path, fun _ => table_congr⟩, ?_⟩
  intro source document hsource hdocument
  refine ⟨?_, ?_, ?_⟩
  · intro bases hchain hlength htree
    have htrees : ∀ d ∈ document :: bases.map (·.2), (Value.map d).IsTree := List.forall_mem_cons.mpr
      ⟨(List.forall_mem_cons.mp htree).1, List.forall_mem_map.mpr (List.forall_mem_cons.mp htree).2⟩
    obtain ⟨merged, hmerged, hmergedTree, hnone, hplainly⟩ := Entries.laidOver_ok htrees
    have hfollows : ((source, document) :: bases).IsChain l.shelf.Follows := follows_eq_link ▸ hchain.links
    have hinherit : l.shelf.inherit maxLinks source document = .ok merged :=
      Shelf.inherit_chain hfollows hchain.ends hlength htree hmerged
    have htable := table_of_inherit hdocument hsource hinherit
    refine ⟨merged, hmerged, hnone, htable, fun hplain => ?_⟩
    have hplains : ∀ d ∈ document :: bases.map (·.2), d.PlainlyListed := List.forall_mem_cons.mpr
      ⟨(List.forall_mem_cons.mp hplain).1, List.forall_mem_map.mpr (List.forall_mem_cons.mp hplain).2⟩
    obtain ⟨hmergedPlain, hlisted⟩ := hplainly hplains
    simp only [htable, Except.mapError_eq_ok_iff, ← funext hlisted]
    exact ⟨RuleTable.exists_table_iff hmergedPlain hmergedTree _,
      fun table => RuleTable.holdsListed_of_ofDocument hmergedPlain hmergedTree⟩
  · intro bases hchain hlength hends
    have hfollows : ((source, document) :: bases).IsChain l.shelf.Follows := follows_eq_link ▸ hchain
    have hinherit := Shelf.inherit_tooLong hfollows hends
    rw [hlength] at hinherit
    exact table_of_inherit_error hdocument hsource hinherit
  · intro file hreach hcircle
    rw [← follows_eq_link] at hreach hcircle
    have hinherit := Shelf.inherit_circle hreach hcircle maxLinks
    exact table_of_inherit_error hdocument hsource hinherit

/-- The entries of a document that lists one value under the heading for all types. -/
def listing (v : Value) : Entries := [(.text "transitions", .map [(.text "ALL", v)])]

theorem listing_isTree {v : Value} (hv : v.IsTree) : (Value.map (listing v)).IsTree := by
  have hrows : (Value.map [(.text "ALL", v)]).IsTree := .map (by simp [Entries.TextKeyed]) (by simpa using hv)
  exact .map (by simp [Entries.TextKeyed, listing]) (by simpa [listing] using hrows)

theorem listing_plainlyListed {v : Value} {items : List Value} (h : RuleTable.itemsOf? v = some items) :
    (listing v).PlainlyListed := by
  rintro _ ⟨⟩
  refine ⟨_, rfl, ?_⟩
  simpa [Entries.PlainRows, h] using ⟨by decide, by decide⟩

theorem listing_listed? (v : Value) (heading : Text) :
    (listing v).listed? heading = if heading = "ALL" then some v else none := by
  have hrows : (listing v).listed? heading = Entries.get? [(.text "ALL", v)] heading := rfl
  rw [hrows, Entries.get?_cons, Entries.get?_nil]
  by_cases h : heading = "ALL" <;> simp [h, eq_comm]

/-- Three files: one that lists no rules over one that lists an unknown check, and one over itself. -/
def threeFiles : Library where
  document p := .ok <|
    if p.name = "top" then (.text baseKey, .scalar (.text "below")) :: listing (.scalar .null)
    else if p.name = "below" then listing (.list [.scalar (.text "unknown")])
    else [(.text baseKey, .scalar (.text "circle"))]
  has _ := .ok true
  resolve p := .ok (p.resolve [])

/-- The first file, which has the second one as its base. -/
def topFile : Path × Entries :=
  (⟨.single, ["top"]⟩, (.text baseKey, .scalar (.text "below")) :: listing (.scalar .null))

def belowFile : Path × Entries := (⟨.single, ["below"]⟩, listing (.list [.scalar (.text "unknown")]))

def circleFile : Path × Entries := (⟨.single, ["circle"]⟩, [(.text baseKey, .scalar (.text "circle"))])

theorem threeFiles_links : threeFiles.Link topFile belowFile ∧ threeFiles.Link circleFile circleFile :=
  ⟨⟨"below", rfl, by decide, rfl, rfl, rfl⟩, ⟨"circle", rfl, by decide, rfl, rfl, rfl⟩⟩

theorem topFile_isTree : (Value.map topFile.2).IsTree := by
  have hlisting := listing_isTree (.leaf rfl : (Value.scalar .null).IsTree)
  have hkey : Scalar.text baseKey ≠ .text "transitions" := by decide
  refine .map ?_ (List.forall_mem_cons.mpr ⟨.leaf rfl, hlisting.values⟩)
  simpa [Entries.TextKeyed, topFile, listing] using hkey

theorem table_of_links_threeFiles :
    (∃ table, threeFiles.table ⟨.single, ["top"]⟩ = .ok table ∧ table.under "ALL" = []) ∧
      threeFiles.table ⟨.single, ["circle"]⟩ = .error .chainTooLong := by
  constructor
  · have hchain : threeFiles.IsWholeChain [topFile, belowFile] := by
      refine ⟨List.isChain_cons_cons.mpr ⟨threeFiles_links.1, .singleton _⟩, ?_⟩
      rintro _ ⟨⟩
      rfl
    have htree : ∀ file ∈ [topFile, belowFile], (Value.map file.2).IsTree := by
      have hbelow : (Value.map belowFile.2).IsTree := listing_isTree (.leaf rfl)
      simp [topFile_isTree, hbelow]
    have hplain : ∀ file ∈ [topFile, belowFile], file.2.PlainlyListed := by
      have htop : topFile.2.PlainlyListed := listing_plainlyListed (v := .scalar .null) rfl
      have hbelow : belowFile.2.PlainlyListed := listing_plainlyListed rfl
      simp [htop, hbelow]
    obtain ⟨merged, hmerged, -, -, htables⟩ :=
      ((table_of_links threeFiles topFile.1).2 topFile.1 topFile.2 rfl rfl).1 [belowFile] hchain (by decide)
        htree
    have hlaid : Entries.laidOver topFile.2 [belowFile.2] = .ok (listing (.scalar .null)) := by
      simp only [Entries.laidOver, bind, Except.bind]
      cbv
    obtain rfl : merged = listing (.scalar .null) := Except.ok.inj (hmerged.symm.trans hlaid)
    obtain ⟨htable, hholds⟩ := htables hplain
    -- nothing but the empty list of the first file is listed
    have hnearest : ∀ heading v, Entries.nearest? [topFile.2, belowFile.2] heading = some v →
        v = .scalar .null := by
      intro heading v hv
      have htop : topFile.2.listed? heading = if heading = "ALL" then some (.scalar .null) else none :=
        listing_listed? _ _
      have hbelow : belowFile.2.listed? heading = if heading = "ALL" then _ else none := listing_listed? _ _
      by_cases hheading : heading = "ALL"
      · rw [if_pos hheading] at htop
        simp only [Entries.nearest?, List.findSome?_cons, htop, Option.some.injEq] at hv
        exact hv.symm
      · rw [if_neg hheading] at htop hbelow
        simp only [Entries.nearest?, List.findSome?_cons, List.findSome?_nil, htop, hbelow] at hv
        cases hv
    have hreadable : RuleTable.ListsReadable (Entries.nearest? [topFile.2, belowFile.2]) := by
      intro heading v items hv hitems
      obtain rfl := hnearest heading v hv
      cases hitems
      exact ⟨[], rfl⟩
    obtain ⟨table, hok⟩ := htable.mpr ⟨rfl, hreadable⟩
    obtain ⟨items, rules, hitems, hrules, hunder⟩ := (hholds table hok "ALL").2 (.scalar .null) rfl
    cases hitems
    cases hrules
    exact ⟨table, hok, hunder⟩
  · exact ((table_of_links threeFiles circleFile.1).2 _ circleFile.2 rfl rfl).2.2 _ .refl
      (.single threeFiles_links.2)

end Library

end TransitionAudit
