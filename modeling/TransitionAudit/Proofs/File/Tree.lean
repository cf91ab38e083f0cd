import TransitionAudit.Proofs.Data.Result
import TransitionAudit.File.Tree

/-!
# What stands in a tree

A tree grows when directories and files are put where no directories stand: whatever path leads somewhere
leads to the same place afterwards. So a file that was written is read, and a directory that was made is
there.
-/

namespace TransitionAudit

theorem sameNames_iff {a b : List Text} : sameNames a b = true ↔ a.map nameOctets = b.map nameOctets := by
  simp only [sameNames, Bool.or_eq_true, beq_iff_eq]
  constructor
  · rintro (rfl | h)
    · rfl
    · exact h
  · exact .inr

/-- Names in one directory are the same as far as the last one is. -/
theorem sameNames_concat_iff {dir : List Text} {a b : Text} :
    sameNames (dir ++ [a]) (dir ++ [b]) = true ↔ nameOctets a = nameOctets b := by
  simp [sameNames_iff]

namespace Tree

variable {t t' : Tree} {p : Path}

/-! ## Nodes -/

theorem node?_nil : t.node? [] = some .directory := rfl

theorem node?_of_ne_nil {names : List Text} (h : names ≠ []) :
    t.node? names = (t.nodes.find? fun e => sameNames e.1 names).map (·.2) := by
  have hempty : names.isEmpty = false := by simpa using h
  rw [node?, hempty]
  rfl

/-- Names that stand for the same octets stand for the same thing. -/
theorem node?_congr {a b : List Text} (h : sameNames a b = true) : t.node? a = t.node? b := by
  rw [sameNames_iff] at h
  have hempty : a.isEmpty = b.isEmpty := by
    rw [← List.isEmpty_map (f := nameOctets), h, List.isEmpty_map]
  have hsame : ∀ e : List Text × Node, sameNames e.1 a = sameNames e.1 b := by
    intro e
    rw [Bool.eq_iff_iff, sameNames_iff, sameNames_iff, h]
  simp only [node?, hempty, hsame]

theorem find?_putNode (names other : List Text) (x : Node) (nodes : List (List Text × Node)) :
    ((putNode names x nodes).find? fun e => sameNames e.1 other).map (·.2) =
      if sameNames names other then some x else (nodes.find? fun e => sameNames e.1 other).map (·.2) := by
  induction nodes with
  | nil => by_cases h : sameNames names other = true <;> simp [putNode, h]
  | cons e nodes ih =>
      obtain ⟨n, y⟩ := e
      by_cases hn : sameNames n names = true
      · have hsame : sameNames n other = sameNames names other := by
          rw [sameNames_iff] at hn
          rw [Bool.eq_iff_iff, sameNames_iff, sameNames_iff, hn]
        by_cases ho : sameNames names other = true <;> simp [putNode, hn, hsame, ho]
      · by_cases ho : sameNames n other = true
        · have hother : ¬ sameNames names other = true := by
            rw [sameNames_iff] at hn ho ⊢
            exact fun h => hn (ho.trans h.symm)
          simp [putNode, hn, ho, hother]
        · simpa [putNode, hn, ho] using ih

theorem node?_put {names : List Text} (h : names ≠ []) (x : Node) (other : List Text) :
    (t.put names x).node? other = if sameNames names other then some x else t.node? other := by
  by_cases hother : other = []
  · subst hother
    have hne : ¬ sameNames names [] = true := by simpa [sameNames_iff] using h
    rw [node?_nil, node?_nil, if_neg hne]
  · rw [node?_of_ne_nil hother, node?_of_ne_nil hother]
    exact find?_putNode names other x t.nodes

theorem node?_put_self {names : List Text} (h : names ≠ []) (x : Node) :
    (t.put names x).node? names = some x := by
  rw [node?_put h, if_pos (sameNames_iff.mpr rfl)]

/-! ## Growth -/

/-- Whether every directory of a tree is one of the other, and everything in it stands in the other. -/
structure Grows (t t' : Tree) : Prop where
  workingDir : t'.workingDir = t.workingDir
  directory : ∀ names, t.node? names = some .directory → t'.node? names = some .directory
  isSome : ∀ names, (t.node? names).isSome = true → (t'.node? names).isSome = true

theorem Grows.refl (t : Tree) : t.Grows t := ⟨rfl, fun _ h => h, fun _ h => h⟩

theorem Grows.trans {t'' : Tree} (h : t.Grows t') (h' : t'.Grows t'') : t.Grows t'' :=
  ⟨h'.workingDir.trans h.workingDir, fun names hn => h'.directory names (h.directory names hn),
    fun names hn => h'.isSome names (h.isSome names hn)⟩

theorem isNone_of_grows {names : List Text} (hgrows : t.Grows t') (h : (t'.node? names).isNone = true) :
    (t.node? names).isNone = true := by
  rw [← Option.not_isSome, Bool.not_eq_true', ← Bool.not_eq_true] at h ⊢
  exact mt (hgrows.isSome names) h

theorem ne_nil_of_node?_ne_directory {names : List Text} (h : t.node? names ≠ some .directory) :
    names ≠ [] := by
  rintro rfl
  exact h node?_nil

theorem grows_put {names : List Text} (h : t.node? names ≠ some .directory) (x : Node) :
    t.Grows (t.put names x) := by
  have hnames := ne_nil_of_node?_ne_directory h
  refine ⟨rfl, fun other hother => ?_, fun other hother => ?_⟩
  · have hne : ¬ sameNames names other = true := fun hsame => h (node?_congr hsame ▸ hother)
    rw [node?_put hnames, if_neg hne, hother]
  · rw [node?_put hnames]
    split
    · rfl
    · exact hother

/-! ## Paths -/

theorem walk_eq_ok {path : Text} {here names dest : List Text} {node : Option Node}
    (h : t.walk path here names = .ok (dest, node)) : dest = Path.follow here names ∧ node = t.node? dest := by
  induction names generalizing here with
  | nil =>
      cases h
      exact ⟨rfl, rfl⟩
  | cons name rest ih =>
      unfold walk at h
      split at h
      · cases h
      · cases h
      · split at h
        · rename_i hup
          have hrest := ih h
          simpa [Path.follow, hup] using hrest
        · rename_i hup
          split at h
          · cases h
          · simp only at h
            split at h
            · cases h
            · have hrest := ih h
              simpa [Path.follow, hup] using hrest

/-- A path that leads somewhere leads there when the tree has grown. -/
theorem walk_of_grows {path : Text} {here names dest : List Text} {node : Option Node} (hgrows : t.Grows t')
    (h : t.walk path here names = .ok (dest, node)) : t'.walk path here names = .ok (dest, t'.node? dest) := by
  induction names generalizing here with
  | nil =>
      cases h
      rfl
  | cons name rest ih =>
      unfold walk at h ⊢
      split at h
      · cases h
      · cases h
      · rename_i hhere
        rw [hgrows.directory here hhere]
        simp only
        split at h
        · rename_i hup
          rw [if_pos hup]
          exact ih h
        · rename_i hup
          rw [if_neg hup]
          split at h
          · cases h
          · rename_i hsize
            rw [if_neg hsize]
            simp only at h ⊢
            split at h
            · cases h
            · rename_i hthere
              have hthere' : ¬ ((t'.node? (here ++ [name])).isNone && !rest.isEmpty) = true := by
                rw [Bool.and_eq_true] at hthere ⊢
                exact fun ⟨hnone, hrest⟩ => hthere ⟨isNone_of_grows hgrows hnone, hrest⟩
              rw [if_neg hthere']
              exact ih h

theorem locate_eq_ok_iff {dest : List Text} {node : Option Node} :
    t.locate p = .ok (dest, node) ↔ (∃ octets, p.octets .opening = .ok octets ∧ octets.length ≤ maxPathSize) ∧
      t.walk p.text (if p.isAbsolute then [] else t.workingDir) p.names = .ok (dest, node) := by
  simp only [locate, Except.bind_eq_ok_iff]
  constructor
  · rintro ⟨octets, hoctets, h⟩
    split at h
    · cases h
    · rename_i hsize
      exact ⟨⟨octets, hoctets, Nat.le_of_not_lt hsize⟩, h⟩
  · rintro ⟨⟨octets, hoctets, hsize⟩, h⟩
    refine ⟨octets, hoctets, ?_⟩
    rw [if_neg (Nat.not_lt.mpr hsize)]
    exact h

theorem locate_eq_ok {dest : List Text} {node : Option Node} (h : t.locate p = .ok (dest, node)) :
    dest = p.absoluteNames t.workingDir ∧ node = t.node? dest :=
  walk_eq_ok (locate_eq_ok_iff.mp h).2

theorem locate_of_grows {dest : List Text} {node : Option Node} (hgrows : t.Grows t')
    (h : t.locate p = .ok (dest, node)) : t'.locate p = .ok (dest, t'.node? dest) := by
  obtain ⟨hoctets, hwalk⟩ := locate_eq_ok_iff.mp h
  rw [← hgrows.workingDir] at hwalk
  exact locate_eq_ok_iff.mpr ⟨hoctets, walk_of_grows hgrows hwalk⟩

/-! ## Files -/

theorem write_eq_ok_iff {octets : List UInt8} :
    t.write p octets = .ok t' ↔ ∃ dest node, t.locate p = .ok (dest, node) ∧ node ≠ some .directory ∧
      t' = t.put dest (.file octets) := by
  unfold write
  split
  · rename_i fault hlocate
    simp [hlocate]
  · rename_i dest hlocate
    simp [hlocate]
  · rename_i dest node hnode hlocate
    simp only [hlocate, Except.ok.injEq, Prod.mk.injEq]
    constructor
    · rintro rfl
      exact ⟨dest, node, ⟨rfl, rfl⟩, hnode, rfl⟩
    · rintro ⟨_, _, ⟨rfl, rfl⟩, -, rfl⟩
      rfl

theorem read_of_locate {dest : List Text} {octets : List UInt8}
    (h : t.locate p = .ok (dest, some (.file octets))) :
    t.read p = .ok octets := by
  rw [read, h]

theorem isFile_of_locate {dest : List Text} {octets : List UInt8}
    (h : t.locate p = .ok (dest, some (.file octets))) :
    t.isFile p = .ok true := by
  rw [isFile, lookup, h]
  rfl

/-! ## Directories -/

theorem isDirectory_of_locate {dest : List Text} (h : t.locate p = .ok (dest, some .directory)) :
    t.isDirectory p = .ok true := by
  rw [isDirectory, lookup, h]
  rfl

theorem locate_of_isDirectory (h : t.isDirectory p = .ok true) :
    ∃ dest, t.locate p = .ok (dest, some .directory) := by
  unfold isDirectory lookup at h
  split at h
  · rename_i dest node hlocate
    simp only [Except.map, Except.ok.injEq, decide_eq_true_eq] at h
    exact ⟨dest, h ▸ hlocate⟩
  all_goals simp [Except.map] at h

theorem makeDirectory_eq_ok (h : t.makeDirectory p = .ok t') :
    t.Grows t' ∧ ∃ dest, t'.locate p = .ok (dest, some .directory) := by
  unfold makeDirectory at h
  split at h
  · cases h
  · cases h
  · rename_i dest hlocate
    cases h
    have hnone : t.node? dest ≠ some .directory := by
      rw [← (locate_eq_ok hlocate).2]
      exact Option.some_ne_none _ |>.symm
    have hgrows := grows_put hnone .directory
    refine ⟨hgrows, dest, ?_⟩
    rw [locate_of_grows hgrows hlocate, node?_put_self (ne_nil_of_node?_ne_directory hnone)]

theorem orExisting_eq_ok {fault : FileFault} (h : t.orExisting p fault = .ok t') :
    t' = t ∧ ∃ dest, t.locate p = .ok (dest, some .directory) := by
  rw [orExisting, Except.bind_eq_ok_iff] at h
  obtain ⟨there, hthere, h⟩ := h
  cases there with
  | false => cases h
  | true =>
      cases h
      exact ⟨rfl, locate_of_isDirectory hthere⟩

/-- A directory that was made is there, and so is everything that was there before. -/
theorem makeDirectoriesUp_eq_ok {root : PathRoot} {names : List Text}
    (h : makeDirectoriesUp root names t = .ok t') :
    t.Grows t' ∧ (names ≠ [] → ∃ dest, t'.locate ⟨root, names.reverse⟩ = .ok (dest, some .directory)) := by
  induction names generalizing t t' with
  | nil =>
      cases h
      exact ⟨.refl t, fun hne => absurd rfl hne⟩
  | cons name above ih =>
      unfold makeDirectoriesUp at h
      rw [List.reverse_cons]
      simp only at h
      split at h
      · rename_i made hmake
        cases h
        obtain ⟨hgrows, hlocate⟩ := makeDirectory_eq_ok hmake
        exact ⟨hgrows, fun _ => hlocate⟩
      · rw [Except.bind_eq_ok_iff] at h
        obtain ⟨t₁, habove, h⟩ := h
        have hgrows₁ := (ih habove).1
        split at h
        · rename_i made hmake
          cases h
          obtain ⟨hgrows, hlocate⟩ := makeDirectory_eq_ok hmake
          exact ⟨hgrows₁.trans hgrows, fun _ => hlocate⟩
        · obtain ⟨rfl, hlocate⟩ := orExisting_eq_ok h
          exact ⟨hgrows₁, fun _ => hlocate⟩
      · obtain ⟨rfl, hlocate⟩ := orExisting_eq_ok h
        exact ⟨.refl _, fun _ => hlocate⟩

/-- A directory that was made need not be made again. -/
theorem makeDirectories_of_grows {made : Tree} (h : t.makeDirectories p = .ok made) (hgrows : made.Grows t') :
    t'.makeDirectories p = .ok t' := by
  obtain ⟨root, names⟩ := p
  have hmade := (makeDirectoriesUp_eq_ok h).2
  simp only [makeDirectories] at hmade ⊢
  cases hnames : names.reverse with
  | nil => rfl
  | cons name above =>
      rw [hnames] at hmade
      obtain ⟨dest, hdest⟩ := hmade (List.cons_ne_nil _ _)
      have hdirectory := hgrows.directory dest (locate_eq_ok hdest).2.symm
      have hlocate := locate_of_grows hgrows hdest
      rw [hdirectory, List.reverse_cons] at hlocate
      have hexists : t'.makeDirectory ⟨root, above.reverse ++ [name]⟩ =
          .error (.exists (Path.text ⟨root, above.reverse ++ [name]⟩)) := by
        rw [makeDirectory, hlocate]
      simp only [makeDirectoriesUp, hexists, orExisting, isDirectory_of_locate hlocate]
      rfl

end Tree

end TransitionAudit
