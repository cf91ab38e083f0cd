import TransitionAudit.Proofs.File.Tree
import TransitionAudit.Proofs.Trace.Recording
import TransitionAudit.Trace.Folder

/-!
# Folders written and read

Recordings that were read from a folder can be written into any folder that takes their files. Reading that
folder gives the same recordings, and writing those once more gives the same octets.
-/

namespace TransitionAudit

theorem Path.absoluteNames_child {p : Path} {name : Text} (h : name ≠ Path.up) (workingDir : List Text) :
    (p.child name).absoluteNames workingDir = p.absoluteNames workingDir ++ [name] := by
  have habsolute : (p.child name).isAbsolute = p.isAbsolute := rfl
  rw [absoluteNames, habsolute, child, follow, List.foldl_append]
  exact if_neg h

/-- Whether a folder is there or can be made, and then takes files of some names. -/
def Tree.Takes (t : Tree) (folder : Path) (names : List Text) : Prop :=
  ∃ made, t.makeDirectories folder = .ok made ∧
    ∀ name ∈ names, ∃ written, made.write (folder.child name) [] = .ok written

namespace Recordings

variable {room : Room} {t made : Tree} {folder : Path}

/-! ## Files written one after the other -/

/-- One file of a folder, which is made if it is missing. -/
def writeFile (folder : Path) (t : Tree) (file : Text × Text) : Except FileFault Tree := do
  match (← t.makeDirectories folder).writeText (folder.child file.1) file.2 with
  | (t, none) => return t
  | (_, some fault) => throw fault

theorem writeFolder_eq_foldlM (r : Recordings) (t : Tree) (folder : Path) :
    r.writeFolder t folder = r.files.foldlM (writeFile folder) t := rfl

theorem writeFile_eq_ok {file : Text × Text} {octets : List UInt8} {dest : List Text} {node : Option Node}
    (hmake : t.makeDirectories folder = .ok made) (hencode : Text.Utf8.encode file.2 = .ok octets)
    (hlocate : made.locate (folder.child file.1) = .ok (dest, node)) (hnode : node ≠ some .directory) :
    writeFile folder t file = .ok (made.put dest (.file octets)) := by
  have hwrite : made.write (folder.child file.1) octets = .ok (made.put dest (.file octets)) :=
    Tree.write_eq_ok_iff.mpr ⟨dest, node, hlocate, hnode, rfl⟩
  simp only [writeFile, hmake, Tree.writeText, hencode, hwrite, bind, Except.bind]
  rfl

/-- Whether a tree holds the texts of files under their names in a folder. -/
def Holds (t : Tree) (folder : Path) (files : List (Text × Text)) : Prop :=
  ∀ file ∈ files, ∃ dest octets, Text.Utf8.encode file.2 = .ok octets ∧
    t.locate (folder.child file.1) = .ok (dest, some (.file octets))

/-- Files of different names are written one after the other into a folder that is there. What stands
elsewhere is left as it is, so none of them is written over. -/
theorem writeFiles_eq_ok {files : List (Text × Text)} (hmake : made.makeDirectories folder = .ok made)
    (hencode : ∀ file ∈ files, ∃ octets, Text.Utf8.encode file.2 = .ok octets)
    (hplace : ∀ file ∈ files, ∃ dest node, made.locate (folder.child file.1) = .ok (dest, node) ∧
      node ≠ some .directory)
    (hup : ∀ file ∈ files, file.1 ≠ Path.up)
    (hnames : files.Pairwise fun a b => nameOctets a.1 ≠ nameOctets b.1) :
    ∃ t, files.foldlM (writeFile folder) made = .ok t ∧ made.Grows t ∧ Holds t folder files ∧
      ∀ names,
        (∀ file ∈ files, ¬ sameNames ((folder.child file.1).absoluteNames made.workingDir) names = true) →
        t.node? names = made.node? names := by
  induction files generalizing made with
  | nil => exact ⟨made, rfl, .refl made, by simp [Holds], fun _ _ => rfl⟩
  | cons file files ih =>
      obtain ⟨⟨octets, hoctets⟩, hencode⟩ := List.forall_mem_cons.mp hencode
      obtain ⟨⟨dest, node, hlocate, hnode⟩, hplace⟩ := List.forall_mem_cons.mp hplace
      obtain ⟨hfileUp, hup⟩ := List.forall_mem_cons.mp hup
      obtain ⟨hfileName, hnames⟩ := List.pairwise_cons.mp hnames
      obtain ⟨hdest, rfl⟩ := Tree.locate_eq_ok hlocate
      have hne := Tree.ne_nil_of_node?_ne_directory hnode
      have hgrows := Tree.grows_put hnode (.file octets)
      have hput := @Tree.node?_put made dest hne (.file octets)
      obtain ⟨t, hwrite, hgrows', hholds, hkept⟩ := @ih (made.put dest (.file octets))
        (Tree.makeDirectories_of_grows hmake hgrows) hencode
        (by
          intro other hother
          obtain ⟨dest', node', hlocate', hnode'⟩ := hplace other hother
          obtain ⟨-, rfl⟩ := Tree.locate_eq_ok hlocate'
          refine ⟨dest', _, Tree.locate_of_grows hgrows hlocate', ?_⟩
          rw [hput]
          split
          · simp
          · exact hnode')
        hup hnames
      refine ⟨t, ?_, hgrows.trans hgrows', List.forall_mem_cons.mpr ⟨⟨dest, octets, hoctets, ?_⟩, hholds⟩, ?_⟩
      · rw [List.foldlM_cons, writeFile_eq_ok hmake hoctets hlocate hnode]
        exact hwrite
      · rw [Tree.locate_of_grows (hgrows.trans hgrows') hlocate, hkept, hput, if_pos (sameNames_iff.mpr rfl)]
        intro other hother
        rw [hdest, Path.absoluteNames_child hfileUp, Path.absoluteNames_child (hup other hother)]
        intro hsame
        exact hfileName other hother (sameNames_concat_iff.mp hsame).symm
      · intro names hnames'
        obtain ⟨hfirst, hrest⟩ := List.forall_mem_cons.mp hnames'
        rw [hkept names hrest, hput, if_neg (hdest ▸ hfirst)]

/-! ## Recordings of a folder -/

theorem exists_encode_of_mem_files (r : Recordings) :
    ∀ file ∈ r.files, ∃ octets, Text.Utf8.encode file.2 = .ok octets := by
  simp [files, Recording.encode_text]

theorem map_fst_files (r : Recordings) : r.files.map (·.1) = fileNames := rfl

/-- A folder that takes the files of recordings holds them when they are written. -/
theorem writeFolder_eq_ok (r : Recordings) (h : t.Takes folder fileNames) :
    ∃ u, r.writeFolder t folder = .ok u ∧ Holds u folder r.files := by
  obtain ⟨made, hmake, htakes⟩ := h
  have hagain := Tree.makeDirectories_of_grows hmake (.refl made)
  have hplace : ∀ file ∈ r.files, ∃ dest node, made.locate (folder.child file.1) = .ok (dest, node) ∧
      node ≠ some .directory := by
    intro file hfile
    obtain ⟨written, hwritten⟩ := htakes file.1 (List.mem_map_of_mem (f := Prod.fst) hfile)
    obtain ⟨dest, node, hlocate, hnode, -⟩ := Tree.write_eq_ok_iff.mp hwritten
    exact ⟨dest, node, hlocate, hnode⟩
  have hup : ∀ file ∈ r.files, file.1 ≠ Path.up := by
    have hall : ∀ name ∈ fileNames, name ≠ Path.up := by decide
    exact fun file hfile => hall file.1 (List.mem_map_of_mem (f := Prod.fst) hfile)
  have hnames : r.files.Pairwise fun a b => nameOctets a.1 ≠ nameOctets b.1 := by
    have hall : fileNames.Pairwise fun a b => nameOctets a ≠ nameOctets b := by decide
    rw [← r.map_fst_files, List.pairwise_map] at hall
    exact hall
  obtain ⟨u, hwrite, -, hholds, -⟩ := writeFiles_eq_ok hagain r.exists_encode_of_mem_files hplace hup hnames
  refine ⟨u, ?_, hholds⟩
  -- only the first file finds the folder missing
  have hfirst : ∀ file, writeFile folder t file = writeFile folder made file := by
    intro file
    simp only [writeFile, hmake, hagain]
  rw [writeFolder_eq_foldlM, files, List.foldlM_cons, hfirst]
  exact hwrite

theorem missingFrom_eq_nil {names : List Text}
    (h : ∀ name ∈ names, t.isFile (folder.child name) = .ok true) : missingFrom t folder names = .ok [] := by
  induction names with
  | nil => rfl
  | cons name names ih =>
      obtain ⟨hname, hnames⟩ := List.forall_mem_cons.mp h
      simp only [missingFrom, hname, ih hnames, bind, Except.bind]
      rfl

theorem ofFolder_eq_ok_iff {r : Recordings} :
    ofFolder room t folder = .ok r ↔ missingFrom t folder fileNames = .ok [] ∧
      Recording.windows room t (folder.child windowsFile) = .ok r.windows ∧
      Recording.layers room t (folder.child layersFile) = .ok r.layers ∧
      Recording.transitions room t (folder.child transitionsFile) = .ok r.log := by
  simp only [ofFolder, Except.bind_eq_ok_iff, Except.mapError_eq_ok_iff]
  constructor
  · rintro ⟨missing, hmissing, h⟩
    split at h
    · cases h
    · rename_i hempty
      simp only [Except.bind_eq_ok_iff, Except.pure_eq_ok_iff] at h
      obtain ⟨windows, hwindows, layers, hlayers, log, hlog, rfl⟩ := h
      have hnil : missing = [] := by simpa using hempty
      exact ⟨hnil ▸ hmissing, hwindows, hlayers, hlog⟩
  · rintro ⟨hmissing, hwindows, hlayers, hlog⟩
    refine ⟨[], hmissing, ?_⟩
    simp only [List.isEmpty_nil, Bool.not_true, Bool.false_eq_true, ↓reduceIte, Except.bind_eq_ok_iff,
      Except.pure_eq_ok_iff]
    exact ⟨_, hwindows, _, hlayers, _, hlog, rfl⟩

/-- Rows that were read from a file are read from any file that holds their text. -/
theorem readFile_of_holds {β : Type} {read : Json → Except RowFault β} {write : β → Json} {source : Room} {u : Tree}
    {p q : Path} {rows : List β}
    (hkept : ∀ v x, v.Legible → read v = .ok x → Recording.IsKept room read write x)
    (h : Recording.readFile source read t p = .ok rows) {octets : List UInt8}
    (hencode : Text.Utf8.encode (Recording.text write rows) = .ok octets) (hread : u.read q = .ok octets) :
    Recording.readFile room read u q = .ok rows := by
  rw [Recording.encode_text, Except.ok.injEq] at hencode
  subst hencode
  exact Recording.readFile_eq_ok_iff.mpr ⟨_, hread, Recording.readOctets_of_readFile hkept h q.text⟩

/-- A folder that holds the files of recordings that were read is read as these recordings, whatever room there is. -/
theorem ofFolder_of_holds {r : Recordings} {source : Path} {u : Tree} (h : ofFolder room t source = .ok r)
    (hholds : Holds u folder r.files) (other : Room) : ofFolder other u folder = .ok r := by
  obtain ⟨-, hwindows, hlayers, hlog⟩ := ofFolder_eq_ok_iff.mp h
  have hread : ∀ file ∈ r.files, ∃ octets, Text.Utf8.encode file.2 = .ok octets ∧
      u.read (folder.child file.1) = .ok octets := by
    intro file hfile
    obtain ⟨dest, octets, hencode, hlocate⟩ := hholds file hfile
    exact ⟨octets, hencode, Tree.read_of_locate hlocate⟩
  have hfiles : ∀ name ∈ fileNames, u.isFile (folder.child name) = .ok true := by
    rw [← r.map_fst_files, List.forall_mem_map]
    intro file hfile
    obtain ⟨dest, octets, -, hlocate⟩ := hholds file hfile
    exact Tree.isFile_of_locate hlocate
  simp only [files, List.forall_mem_cons] at hread
  obtain ⟨⟨_, hencodeWindows, hreadWindows⟩, ⟨_, hencodeLayers, hreadLayers⟩, ⟨_, hencodeLog, hreadLog⟩, -⟩ :=
    hread
  refine ofFolder_eq_ok_iff.mpr ⟨missingFrom_eq_nil hfiles, ?_, ?_, ?_⟩
  · rw [Recording.windows_eq_ok_iff] at hwindows ⊢
    exact readFile_of_holds (fun _ _ => Recording.isKept_window) hwindows hencodeWindows hreadWindows
  · rw [Recording.layers_eq_ok_iff] at hlayers ⊢
    exact readFile_of_holds (fun _ _ => Recording.isKept_layer) hlayers hencodeLayers hreadLayers
  · rw [Recording.transitions_eq_ok_iff] at hlog ⊢
    exact readFile_of_holds (fun _ _ => Recording.isKept_transition) hlog hencodeLog hreadLog

/-- Recordings that were read from a folder can be written into any folder that takes their files; that
folder is read as the same recordings, whatever room there is, and any folder that they are written into after that
holds the same octets. -/
theorem ofFolder_writeFolder {source : Path} {r : Recordings} (h : ofFolder room t source = .ok r) {u : Tree}
    (hfolder : u.Takes folder fileNames) :
    ∃ v, r.writeFolder u folder = .ok v ∧ (∀ other, ofFolder other v folder = .ok r) ∧
      ∀ again, v.Takes again fileNames → ∃ w, r.writeFolder v again = .ok w ∧
        ∀ name ∈ fileNames, ∃ octets,
          v.read (folder.child name) = .ok octets ∧ w.read (again.child name) = .ok octets := by
  obtain ⟨v, hv, hholds⟩ := r.writeFolder_eq_ok hfolder
  refine ⟨v, hv, ofFolder_of_holds h hholds, fun again htakes => ?_⟩
  obtain ⟨w, hw, hholds'⟩ := r.writeFolder_eq_ok htakes
  refine ⟨w, hw, ?_⟩
  rw [← r.map_fst_files, List.forall_mem_map]
  intro file hfile
  obtain ⟨dest, octets, hencode, hlocate⟩ := hholds file hfile
  obtain ⟨dest', octets', hencode', hlocate'⟩ := hholds' file hfile
  obtain rfl := Except.ok.inj (hencode.symm.trans hencode')
  exact ⟨octets, Tree.read_of_locate hlocate, Tree.read_of_locate hlocate'⟩

/-- A row about a window after a blank line. -/
def smallRow : String := "\r\n \x7b\"timestamp\": 5, \"windows\": [\x7b\"title\": \"a\\u00e9\\n\"\x7d]\x7d"

/-- A tree with a folder of recordings: one row about the windows, and no others. -/
def smallTree : Tree where
  nodes :=
    [(["in"], .directory), (["in", layersFile], .file []), (["in", transitionsFile], .file []),
     (["in", windowsFile], .file (smallRow.toList.flatMap Text.Utf8.encodeChar))]
  workingDir := []

def smallRecordings : Recordings where
  windows := ⟨[⟨{ elapsed := 5 }, [⟨"aé\n", true⟩], none⟩], trivial⟩
  layers := .empty
  log := ⟨[], .nil⟩

theorem ofFolder_writeFolder_smallTree :
    ofFolder .usual smallTree ⟨.relative, ["in"]⟩ = .ok smallRecordings ∧
      ∃ v, smallRecordings.writeFolder smallTree ⟨.relative, ["out"]⟩ = .ok v ∧
        ofFolder .usual v ⟨.relative, ["out"]⟩ = .ok smallRecordings := by
  have hread : ofFolder .usual smallTree ⟨.relative, ["in"]⟩ = .ok smallRecordings := by cbv
  have htakes : smallTree.Takes ⟨.relative, ["out"]⟩ fileNames := by
    have hwrite : ∀ name ∈ fileNames,
        (smallTree.put ["out"] .directory).write (Path.child ⟨.relative, ["out"]⟩ name) [] =
          .ok ((smallTree.put ["out"] .directory).put ["out", name] (.file [])) := by
      simp only [fileNames, List.forall_mem_cons]
      exact ⟨by cbv, by cbv, by cbv, by simp⟩
    exact ⟨smallTree.put ["out"] .directory, by cbv, fun name hname => ⟨_, hwrite name hname⟩⟩
  obtain ⟨v, hwritten, hagain, -⟩ := ofFolder_writeFolder hread htakes
  exact ⟨hread, v, hwritten, hagain .usual⟩

end Recordings

end TransitionAudit
