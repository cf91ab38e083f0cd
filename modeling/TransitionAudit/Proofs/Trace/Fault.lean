import TransitionAudit.Proofs.Text.Complete
import TransitionAudit.Proofs.Text.Stream
import TransitionAudit.Proofs.Trace.Lines
import TransitionAudit.Trace.Folder

/-!
# Why recordings are not read

Where the fault of a recording comes from: one of its lines, its octets, or the order of its rows. The fault of
a folder is that of a look-up, that of missing files, or else that of one of its recordings.
-/

namespace TransitionAudit

namespace Recording

section
variable {β : Type} {room : Room} {read : Json → Except RowFault β} {path : Text} {octets : List UInt8}

/-- The lines of a file that are read: all of them, or those that the stream has handed out whole before it comes to
octets that are not UTF-8. -/
def linesOf (octets : List UInt8) : List (List Char) :=
  match Text.Utf8.stream octets with
  | ⟨text, none⟩ => Text.lines text
  | ⟨text, some _⟩ => Text.lines (Text.completeLines text)

/-- The lines are read first, and then the octets may be to blame. -/
theorem readOctets_eq :
    readOctets room read path octets = readLines room read path 1 (linesOf octets) >>= fun xs =>
      match (Text.Utf8.decode octets).fault with
      | none => .ok xs
      | some fault => .error (.notUtf8 path fault) := by
  rw [← Text.Utf8.fault_stream, readOctets, linesOf]
  rcases Text.Utf8.stream octets with ⟨text, _ | fault⟩
  · simp only [readText]
    cases readLines room read path 1 (Text.lines text) <;> rfl
  · simp only [readText]
    cases readLines room read path 1 (Text.lines (Text.completeLines text)) <;> rfl

/-- The fault of a file is that of the first bad line among those that are read, and if there is none, that of its
octets. -/
theorem readOctets_eq_error_iff {fault : RecordingFault} :
    readOctets room read path octets = .error fault ↔
      (∃ n f, FirstBad room read 1 (linesOf octets) n f ∧ fault = .badLine path n f) ∨
      ∃ xs f, List.Forall₂ (IsRow room read) (Text.content (linesOf octets)) xs ∧
        (Text.Utf8.decode octets).fault = some f ∧ fault = .notUtf8 path f := by
  rw [readOctets_eq, Except.bind_eq_error_iff, readLines_eq_error_iff]
  refine or_congr_right (exists_congr fun xs => ?_)
  rw [readLines_eq_ok_iff]
  cases (Text.Utf8.decode octets).fault with
  | none => simp
  | some f => simp [eq_comm]

section
variable {chunks : Nat} (more : List UInt8) (hlength : octets.length = chunks * Text.Utf8.chunkSize)
  (hsound : Text.Utf8.IsSound ⟨0, 0, 0, 0⟩ octets)
include hlength hsound

theorem isPrefix_linesOf :
    Text.lines (Text.completeLines (Text.Utf8.decode octets).text) <+: linesOf (octets ++ more) := by
  have hstart := Text.Utf8.isPrefix_text_stream more hlength hsound
  rw [linesOf]
  rcases hstream : Text.Utf8.stream (octets ++ more) with ⟨text, _ | fault⟩
  · rw [hstream] at hstart
    exact (Text.isPrefix_lines_completeLines hstart).1
  · rw [hstream] at hstart
    exact (Text.isPrefix_lines_completeLines hstart).2

/-- A file fails for the first bad line that whole chunks of it hold with its end, whatever octets come after them. -/
theorem readOctets_of_firstBad {n : Nat} {f : LineFault}
    (hbad : FirstBad room read 1 (Text.lines (Text.completeLines (Text.Utf8.decode octets).text)) n f) :
    readOctets room read path (octets ++ more) = .error (.badLine path n f) :=
  readOctets_eq_error_iff.mpr (.inl ⟨n, f, hbad.of_prefix (isPrefix_linesOf more hlength hsound), rfl⟩)

end

end

/-- What a recording that can be opened is not read for. -/
inductive Fails {β : Type} (room : Room) (read : Json → Except RowFault β) (t : Tree) (p : Path) :
    RecordingFault → Prop
  | notUtf8 (f : Text.Utf8.Fault) : Fails room read t p (.notUtf8 p.text f)
  | badLine {octets : List UInt8} {number : Nat} {f : LineFault} (opens : t.read p = .ok octets)
      (line : FirstBad room read 1 (linesOf octets) number f) : Fails room read t p (.badLine p.text number f)
  | disorder (d : Disorder) : Fails room read t p (.disorder p.text d)
  | duplicate (d : DuplicateId) : Fails room read t p (.duplicate p.text d)

section
variable {room : Room} {t : Tree} {p : Path} {octets : List UInt8} {fault : RecordingFault}
  (hopens : t.read p = .ok octets)
include hopens

theorem fails_of_readFile {β : Type} {read : Json → Except RowFault β}
    (h : readFile room read t p = .error fault) : Fails room read t p fault := by
  simp only [readFile, hopens, Except.bind_eq_error_iff, Except.mapError_eq_error_iff, Except.mapError_eq_ok_iff,
    reduceCtorEq, false_and, exists_false, false_or, Except.ok.injEq, exists_eq_left'] at h
  rcases readOctets_eq_error_iff.mp h with ⟨n, f, hbad, rfl⟩ | ⟨_, f, -, -, rfl⟩
  · exact .badLine hopens hbad
  · exact .notUtf8 f

theorem fails_of_windows (h : windows room t p = .error fault) : Fails room Row.toWindowState t p fault := by
  simp only [windows, Except.bind_eq_error_iff, Except.mapError_eq_error_iff] at h
  rcases h with hfile | ⟨_, -, d, -, rfl⟩
  · exact fails_of_readFile hopens hfile
  · exact .disorder d

theorem fails_of_layers (h : layers room t p = .error fault) : Fails room Row.toLayerState t p fault := by
  simp only [layers, Except.bind_eq_error_iff, Except.mapError_eq_error_iff] at h
  rcases h with hfile | ⟨_, -, d, -, rfl⟩
  · exact fails_of_readFile hopens hfile
  · exact .disorder d

theorem fails_of_transitions (h : transitions room t p = .error fault) : Fails room Row.toTransition t p fault := by
  simp only [transitions, Except.bind_eq_error_iff, Except.mapError_eq_error_iff] at h
  rcases h with hfile | ⟨_, -, d, -, rfl⟩
  · exact fails_of_readFile hopens hfile
  · exact .duplicate d

end

end Recording

/-! ## Folders -/

theorem Tree.exists_read_of_isFile {t : Tree} {p : Path} (h : t.isFile p = .ok true) :
    ∃ octets, t.read p = .ok octets := by
  unfold Tree.isFile Tree.lookup at h
  unfold Tree.read
  rcases hlocate : t.locate p with fault | ⟨names, _ | node⟩
  · rw [hlocate] at h
    cases fault <;> simp [Except.map] at h
  · simp [hlocate, Except.map] at h
  · cases node <;> simp [hlocate, Except.map] at h ⊢

namespace Recordings

variable {room : Room} {t : Tree} {folder : Path}

theorem missingFrom_eq_error {names : List Text} {fault : FileFault}
    (h : missingFrom t folder names = .error fault) : ∃ name ∈ names, t.isFile (folder.child name) = .error fault := by
  induction names with
  | nil => cases h
  | cons name names ih =>
      simp only [missingFrom, Except.bind_eq_error_iff, Except.pure_ne_error, and_false, exists_false, or_false] at h
      rcases h with hname | ⟨_, -, hrest⟩
      · exact ⟨name, List.mem_cons_self, hname⟩
      · obtain ⟨other, hmem, hother⟩ := ih hrest
        exact ⟨other, List.mem_cons_of_mem _ hmem, hother⟩

theorem isFile_of_missingFrom {names : List Text} (h : missingFrom t folder names = .ok []) :
    ∀ name ∈ names, t.isFile (folder.child name) = .ok true := by
  induction names with
  | nil => simp
  | cons name names ih =>
      simp only [missingFrom, Except.bind_eq_ok_iff, Except.pure_eq_ok_iff] at h
      obtain ⟨found, hfound, others, hothers, hnil⟩ := h
      cases found with
      | false => cases hnil
      | true => exact List.forall_mem_cons.mpr ⟨hfound, ih (hothers.trans (congrArg _ hnil))⟩

theorem ofFolder_eq_error {fault : RecordingFault} (h : ofFolder room t folder = .error fault) :
    (∃ name ∈ fileNames, ∃ f, t.isFile (folder.child name) = .error f ∧ fault = .file f) ∨
      (∃ names, fault = .missingFiles folder.text names) ∨
      Recording.Fails room Row.toWindowState t (folder.child windowsFile) fault ∨
      Recording.Fails room Row.toLayerState t (folder.child layersFile) fault ∨
      Recording.Fails room Row.toTransition t (folder.child transitionsFile) fault := by
  simp only [ofFolder, Except.bind_eq_error_iff, Except.mapError_eq_error_iff, Except.mapError_eq_ok_iff] at h
  rcases h with ⟨f, hf, rfl⟩ | ⟨missing, hmissing, h⟩
  · obtain ⟨name, hmem, hname⟩ := missingFrom_eq_error hf
    exact Or.inl ⟨name, hmem, f, hname, rfl⟩
  · right
    split at h
    · cases h
      exact Or.inl ⟨missing, rfl⟩
    · rename_i hempty
      right
      have hnil : missing = [] := by simpa using hempty
      have hfiles := isFile_of_missingFrom (hnil ▸ hmissing)
      simp only [Except.bind_eq_error_iff, Except.pure_ne_error, and_false, exists_false, or_false] at h
      have hread : ∀ name ∈ fileNames, ∃ octets, t.read (folder.child name) = .ok octets :=
        fun name hname => Tree.exists_read_of_isFile (hfiles name hname)
      simp only [fileNames, List.forall_mem_cons] at hread
      obtain ⟨⟨_, hwindows⟩, ⟨_, hlayers⟩, ⟨_, hlog⟩, -⟩ := hread
      rcases h with hfail | ⟨_, -, hfail | ⟨_, -, hfail⟩⟩
      · exact Or.inl (Recording.fails_of_windows hwindows hfail)
      · exact Or.inr (Or.inl (Recording.fails_of_layers hlayers hfail))
      · exact Or.inr (Or.inr (Recording.fails_of_transitions hlog hfail))

end Recordings

end TransitionAudit
