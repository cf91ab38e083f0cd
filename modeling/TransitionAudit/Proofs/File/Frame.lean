import TransitionAudit.Proofs.File.Tree

/-!
# What is left alone in a tree

Making a directory with those above it adds directories that were missing on the way to it, and nothing else.
Writing a text is done if the text has octets and the file takes them.
-/

namespace TransitionAudit

/-- Whether names are those of a path or of a directory above it. -/
def Path.Passes (p : Path) (workingDir names : List Text) : Prop :=
  ∃ above, above <+: p.names ∧ sameNames (absoluteNames workingDir ⟨p.root, above⟩) names = true

namespace Tree

variable {t t' : Tree} {p : Path}

/-! ## Directories -/

/-- Whether a tree has nothing changed but for new directories in some places. -/
structure AddsDirectories (places : List Text → Prop) (t t' : Tree) : Prop where
  workingDir : t'.workingDir = t.workingDir
  kept : ∀ names, t'.node? names = t.node? names ∨
    t.node? names = none ∧ t'.node? names = some .directory ∧ places names

namespace AddsDirectories

variable {places : List Text → Prop}

theorem refl (t : Tree) : AddsDirectories places t t := ⟨rfl, fun _ => .inl rfl⟩

theorem trans {t'' : Tree} (h : AddsDirectories places t t') (h' : AddsDirectories places t' t'') :
    AddsDirectories places t t'' := by
  refine ⟨h'.workingDir.trans h.workingDir, fun names => ?_⟩
  rcases h'.kept names with hsame | ⟨hnone, hnew, hplace⟩
  · rw [hsame]
    exact h.kept names
  · rcases h.kept names with hsame | ⟨_, hdirectory, _⟩
    · exact .inr ⟨hsame ▸ hnone, hnew, hplace⟩
    · rw [hnone] at hdirectory
      cases hdirectory

theorem mono {more : List Text → Prop} (hplaces : ∀ names, places names → more names)
    (h : AddsDirectories places t t') : AddsDirectories more t t' :=
  ⟨h.workingDir, fun names =>
    (h.kept names).imp_right fun ⟨hnone, hnew, hplace⟩ => ⟨hnone, hnew, hplaces names hplace⟩⟩

end AddsDirectories

theorem addsDirectories_makeDirectory (h : t.makeDirectory p = .ok t') :
    AddsDirectories (p.Passes t.workingDir) t t' := by
  unfold makeDirectory at h
  split at h
  · cases h
  · cases h
  · rename_i dest hlocate
    cases h
    obtain ⟨hdest, hnone⟩ := locate_eq_ok hlocate
    have hne : dest ≠ [] := by
      rintro rfl
      cases hnone
    refine ⟨rfl, fun names => ?_⟩
    rw [node?_put hne]
    split
    · rename_i hsame
      exact .inr ⟨(node?_congr hsame).symm.trans hnone.symm, rfl, p.names, List.prefix_rfl, hdest ▸ hsame⟩
    · exact .inl rfl

theorem addsDirectories_orExisting {places : List Text → Prop} {fault : FileFault}
    (h : t.orExisting p fault = .ok t') : AddsDirectories places t t' := by
  obtain ⟨rfl, -⟩ := orExisting_eq_ok h
  exact .refl _

theorem passes_concat {root : PathRoot} {above workingDir names : List Text} (name : Text)
    (h : Path.Passes ⟨root, above⟩ workingDir names) : Path.Passes ⟨root, above ++ [name]⟩ workingDir names := by
  obtain ⟨first, hfirst, hsame⟩ := h
  exact ⟨first, hfirst.trans (List.prefix_append _ _), hsame⟩

theorem addsDirectories_makeDirectoriesUp {root : PathRoot} {names : List Text}
    (h : makeDirectoriesUp root names t = .ok t') :
    AddsDirectories (Path.Passes ⟨root, names.reverse⟩ t.workingDir) t t' := by
  induction names generalizing t t' with
  | nil =>
      cases h
      exact .refl t
  | cons name above ih =>
      unfold makeDirectoriesUp at h
      rw [List.reverse_cons]
      simp only at h
      split at h
      · rename_i made hmake
        cases h
        exact addsDirectories_makeDirectory hmake
      · rw [Except.bind_eq_ok_iff] at h
        obtain ⟨t₁, habove, h⟩ := h
        have hfirst := (ih habove).mono fun _ => passes_concat name
        refine hfirst.trans ?_
        split at h
        · rename_i made hmake
          cases h
          rw [← hfirst.workingDir]
          exact addsDirectories_makeDirectory hmake
        · exact addsDirectories_orExisting h
      · exact addsDirectories_orExisting h

/-- Making a directory changes nothing but the directories on the way to it that were missing. -/
theorem addsDirectories_makeDirectories (h : t.makeDirectories p = .ok t') :
    AddsDirectories (p.Passes t.workingDir) t t' := by
  have hadds := addsDirectories_makeDirectoriesUp h
  rw [List.reverse_reverse] at hadds
  exact hadds

/-! ## Files -/

theorem read_eq_ok_iff {octets : List UInt8} :
    t.read p = .ok octets ↔ ∃ dest, t.locate p = .ok (dest, some (.file octets)) := by
  constructor
  · intro h
    unfold read at h
    split at h
    · cases h
    · cases h
    · cases h
    · rename_i dest _ hlocate
      cases h
      exact ⟨dest, hlocate⟩
  · rintro ⟨dest, hlocate⟩
    exact read_of_locate hlocate

section
variable {octets : List UInt8}

theorem grows_write (h : t.write p octets = .ok t') : t.Grows t' := by
  obtain ⟨dest, node, hlocate, hnode, rfl⟩ := write_eq_ok_iff.mp h
  obtain ⟨-, rfl⟩ := locate_eq_ok hlocate
  exact grows_put hnode _

theorem node?_write (h : t.write p octets = .ok t') (names : List Text) :
    t'.node? names =
      if sameNames (p.absoluteNames t.workingDir) names then some (.file octets) else t.node? names := by
  obtain ⟨dest, node, hlocate, hnode, rfl⟩ := write_eq_ok_iff.mp h
  obtain ⟨rfl, rfl⟩ := locate_eq_ok hlocate
  exact node?_put (ne_nil_of_node?_ne_directory hnode) _ names

theorem read_write (h : t.write p octets = .ok t') : t'.read p = .ok octets := by
  obtain ⟨dest, node, hlocate, -, -⟩ := write_eq_ok_iff.mp h
  obtain ⟨hdest, -⟩ := locate_eq_ok hlocate
  refine read_eq_ok_iff.mpr ⟨dest, ?_⟩
  rw [locate_of_grows (grows_write h) hlocate, node?_write h, if_pos (sameNames_iff.mpr (hdest ▸ rfl))]

theorem read_of_write {q : Path} {other : List UInt8} (h : t.write p octets = .ok t')
    (hplaces : ¬ sameNames (p.absoluteNames t.workingDir) (q.absoluteNames t.workingDir) = true)
    (hread : t.read q = .ok other) : t'.read q = .ok other := by
  obtain ⟨dest, hlocate⟩ := read_eq_ok_iff.mp hread
  obtain ⟨hdest, hnode⟩ := locate_eq_ok hlocate
  refine read_eq_ok_iff.mpr ⟨dest, ?_⟩
  rw [locate_of_grows (grows_write h) hlocate, node?_write h, if_neg (hdest ▸ hplaces), hnode]

end

theorem writeText_eq_none_iff {text : Text} :
    t.writeText p text = (t', none) ↔
      ∃ octets, Text.Utf8.encode text = .ok octets ∧ t.write p octets = .ok t' := by
  unfold writeText
  cases hencode : Text.Utf8.encode text with
  | error fault => cases hwrite : t.write p [] <;> simp [hwrite]
  | ok octets => cases hwrite : t.write p octets <;> simp [hwrite]

end Tree

end TransitionAudit
