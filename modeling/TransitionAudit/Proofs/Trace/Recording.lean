import TransitionAudit.Proofs.Trace.FullRow
import TransitionAudit.Proofs.Trace.Lines
import TransitionAudit.Proofs.Text.Stream

/-!
# Recordings written and read

A recording of rows that were read is plain ASCII with one row on each line, and reading it gives the same
rows in the same order.
-/

namespace TransitionAudit

/-! ## Octets of ASCII -/

namespace Text.Utf8

theorem surrogates?_ofChars (index : Nat) (s : List Char) : surrogates? index (ofChars s) = none := by
  induction s generalizing index with
  | nil => rfl
  | cons c s ih => exact ih (index + 1)

theorem encode_ofChars (s : List Char) : encode (ofChars s) = .ok (s.flatMap encodeChar) := by
  rw [encode, surrogates?_ofChars, toChars_ofChars]

theorem decodeFrom_ascii {s : List Char} (h : ∀ c ∈ s, c.toNat < 0x80) {p : Pending} (hp : p.owed = 0) :
    decodeFrom p (s.flatMap encodeChar) = ⟨s, none⟩ := by
  induction s generalizing p with
  | nil => simp [decodeFrom, hp]
  | cons c s ih =>
      obtain ⟨hc, hs⟩ := List.forall_mem_cons.mp h
      have hoctet : encodeChar c = [.ofNat c.toNat] := by simp only [encodeChar, hc, ↓reduceIte]
      have hnat : (UInt8.ofNat c.toNat).toNat = c.toNat := by
        rw [UInt8.toNat_ofNat']
        omega
      have hstart : start? c.toNat = some ⟨0, c.toNat, 0, 0⟩ := by
        rw [start?, if_pos (by omega)]
      rw [List.flatMap_cons, hoctet, List.singleton_append, decodeFrom, hnat]
      have haccept : p.accept c.toNat = .ok ⟨0, c.toNat, 0, 0⟩ := by
        rw [Pending.accept, if_pos hp, hstart]
      have hrest : decodeFrom ⟨0, c.toNat, 0, 0⟩ (s.flatMap encodeChar) = ⟨s, none⟩ := ih hs rfl
      simp only [haccept, ↓reduceIte, hrest, Char.ofNat_toNat]

theorem decode_ascii {s : List Char} (h : ∀ c ∈ s, c.toNat < 0x80) :
    decode (s.flatMap encodeChar) = ⟨s, none⟩ :=
  decodeFrom_ascii h rfl

end Text.Utf8

/-! ## Lines -/

namespace Text

theorem trim_of_ends {first last : Char} {body : List Char} (hfirst : isBlank first = false)
    (hlast : isBlank last = false) : trim (first :: (body ++ [last])) = first :: (body ++ [last]) := by
  simp [trim, trimBy, hfirst, hlast]

end Text

/-! ## Recordings -/

namespace Recording

variable {β : Type} {room : Room} {read : Json → Except RowFault β} {write : β → Json}

/-- Whether a row is written as an object that it is read from. -/
structure IsKept (room : Room) (read : Json → Except RowFault β) (write : β → Json) (x : β) : Prop where
  isObject : ∃ ms, write x = .obj ms
  plain : Json.Plain room.json (write x)
  read_write : read (write x).sorted = .ok x

/-- The line of a row. -/
def line (write : β → Json) (x : β) : List Char := Json.write Json.compact 0 (write x).sorted

theorem text_eq (rows : List β) :
    text write rows = Text.ofChars (rows.flatMap fun x => line write x ++ ['\n']) := by
  induction rows with
  | nil => rfl
  | cons x rows ih =>
      have hcons : text write (x :: rows) =
          Text.ofChars (line write x) ++ Text.ofChars ['\n'] ++ text write rows := rfl
      rw [hcons, ih, List.flatMap_cons]
      simp only [Text.ofChars, List.map_append]

theorem IsKept.isPlainChar {x : β} (h : IsKept room read write x) : ∀ c ∈ line write x, Json.IsPlainChar c :=
  h.plain.sorted.isPlainChar 0

theorem IsKept.trim_line {x : β} (h : IsKept room read write x) :
    Text.trim (line write x) = line write x ∧ line write x ≠ [] := by
  obtain ⟨ms, hms⟩ := h.isObject
  obtain ⟨body, hbody⟩ := Json.exists_write_obj Json.compact 0 (Json.sortMembers (Json.sortedMembers ms))
  rw [line, hms, Json.sorted, hbody]
  exact ⟨Text.trim_of_ends (by decide) (by decide), List.cons_ne_nil _ _⟩

theorem IsKept.readLine_line {x : β} (h : IsKept room read write x) : readLine room read (line write x) = .ok x := by
  have hread := Json.read_write Json.compact_isReadable h.plain.sorted
  rw [readLine, line, hread]
  simp only [h.read_write, Except.mapError]

theorem readLines_lines {rows : List β} (h : ∀ x ∈ rows, IsKept room read write x) (path : Text) (number : Nat) :
    readLines room read path number (rows.map (line write)) = .ok rows := by
  induction rows generalizing number with
  | nil => rfl
  | cons x rows ih =>
      obtain ⟨hx, hrows⟩ := List.forall_mem_cons.mp h
      obtain ⟨htrim, hne⟩ := hx.trim_line
      have hblank : (line write x).isEmpty = false := by simpa using hne
      rw [List.map_cons, readLines, htrim, hblank]
      simp only [Bool.false_eq_true, ↓reduceIte, hx.readLine_line, ih hrows, Except.mapError, bind, Except.bind, pure,
        Except.pure]

theorem lines_flatMap {rows : List β} (h : ∀ x ∈ rows, IsKept room read write x) :
    Text.lines (rows.flatMap fun x => line write x ++ ['\n']) = rows.map (line write) := by
  induction rows with
  | nil => rfl
  | cons x rows ih =>
      obtain ⟨hx, hrows⟩ := List.forall_mem_cons.mp h
      have hends : Text.HasNoEnd (line write x) := by
        intro c hc
        have hplain := (hx.isPlainChar c hc).1
        constructor
        · rintro rfl
          exact absurd hplain (by decide)
        · rintro rfl
          exact absurd hplain (by decide)
      rw [List.flatMap_cons, Text.lines_append hends .lf, ih hrows, List.map_cons]

/-- The octets of a recording of rows. -/
def octets (write : β → Json) (rows : List β) : List UInt8 :=
  (rows.flatMap fun x => line write x ++ ['\n']).flatMap Text.Utf8.encodeChar

theorem encode_text (rows : List β) : Text.Utf8.encode (text write rows) = .ok (octets write rows) := by
  rw [text_eq, Text.Utf8.encode_ofChars]
  rfl

/-- Reading the octets of a recording gives its rows. -/
theorem readOctets_octets {rows : List β} (h : ∀ x ∈ rows, IsKept room read write x) (path : Text) :
    readOctets room read path (octets write rows) = .ok rows := by
  have hascii : ∀ c ∈ rows.flatMap fun x => line write x ++ ['\n'], c.toNat < 0x80 := by
    intro c hc
    obtain ⟨x, hx, hc⟩ := List.mem_flatMap.mp hc
    rcases List.mem_append.mp hc with hc | hc
    · have hplain := ((h x hx).isPlainChar c hc).2
      omega
    · rw [List.mem_singleton.mp hc]
      decide
  rw [readOctets, octets, Text.Utf8.stream_eq_none_iff.mpr (Text.Utf8.decode_ascii hascii)]
  simp only [readText, lines_flatMap h, readLines_lines h]

/-! ## Rows that were read -/

theorem exists_of_mem_readLines {path : Text} {number : Nat} {lines : List (List Char)} {rows : List β}
    (h : readLines room read path number lines = .ok rows) : ∀ x ∈ rows, ∃ v : Json, v.Legible ∧ read v = .ok x := by
  intro x hx
  obtain ⟨line, -, v, hdecode, hread⟩ := (readLines_eq_ok_iff.mp h).flip.exists_of_mem_left hx
  exact ⟨v, Json.legible_of_read hdecode, hread⟩

theorem exists_of_mem_readOctets {path : Text} {octets : List UInt8} {rows : List β}
    (h : readOctets room read path octets = .ok rows) : ∀ x ∈ rows, ∃ v : Json, v.Legible ∧ read v = .ok x := by
  unfold readOctets at h
  split at h
  · exact exists_of_mem_readLines h
  · rw [Except.bind_eq_ok_iff] at h
    obtain ⟨_, -, hthrow⟩ := h
    cases hthrow

theorem readFile_eq_ok_iff {t : Tree} {p : Path} {rows : List β} :
    readFile room read t p = .ok rows ↔
      ∃ octets, t.read p = .ok octets ∧ readOctets room read p.text octets = .ok rows := by
  simp only [readFile, Except.bind_eq_ok_iff, Except.mapError_eq_ok_iff]

end Recording

/-! ## The three kinds -/

theorem TransitionLog.of_eq_ok_iff {entries : List Transition} {l : TransitionLog} :
    TransitionLog.of entries = .ok l ↔ l.entries = entries := by
  obtain ⟨es, hunique⟩ := l
  unfold TransitionLog.of
  split
  · simp only [Except.ok.injEq, TransitionLog.mk.injEq]
    exact eq_comm
  · rename_i d h
    simp only [reduceCtorEq, false_iff]
    rintro rfl
    rw [(duplicate?_eq_none_iff [] 0 _).mpr ⟨hunique, by simp⟩] at h
    cases h

namespace Recording

variable {room : Room}

theorem windows_eq_ok_iff {t : Tree} {p : Path} {trace : WindowTrace} :
    windows room t p = .ok trace ↔ readFile room Row.toWindowState t p = .ok trace.entries := by
  simp only [windows, Except.bind_eq_ok_iff, Except.mapError_eq_ok_iff, Trace.of_eq_ok_iff, exists_eq_right']

theorem layers_eq_ok_iff {t : Tree} {p : Path} {trace : LayerTrace} :
    layers room t p = .ok trace ↔ readFile room Row.toLayerState t p = .ok trace.entries := by
  simp only [layers, Except.bind_eq_ok_iff, Except.mapError_eq_ok_iff, Trace.of_eq_ok_iff, exists_eq_right']

theorem transitions_eq_ok_iff {t : Tree} {p : Path} {log : TransitionLog} :
    transitions room t p = .ok log ↔ readFile room Row.toTransition t p = .ok log.entries := by
  simp only [transitions, Except.bind_eq_ok_iff, Except.mapError_eq_ok_iff, TransitionLog.of_eq_ok_iff,
    exists_eq_right']

theorem isKept_window {v : Json} {s : WindowState} (hv : v.Legible) (h : Row.toWindowState v = .ok s) :
    IsKept room Row.toWindowState WindowState.toJson s := by
  have hs := (Row.toWindowState_eq_ok_iff.mp h).recordable hv
  have hplain := (s.plain_toJson hs 0).mono room.rows_le
  have hfull := s.isWindowState_toJson fun w hw => (hs.titles w hw).1
  exact ⟨⟨_, rfl⟩, hplain, Row.toWindowState_eq_ok_iff.mpr (hfull.sorted hplain.tidy)⟩

theorem isKept_layer {v : Json} {s : LayerState} (hv : v.Legible) (h : Row.toLayerState v = .ok s) :
    IsKept room Row.toLayerState LayerState.toJson s := by
  have hs := (Row.toLayerState_eq_ok_iff.mp h).recordable hv
  have hplain := (s.plain_toJson hs 0).mono room.rows_le
  have hfull := s.isLayerState_toJson fun l hl => (hs.names l hl).1
  exact ⟨⟨_, rfl⟩, hplain, Row.toLayerState_eq_ok_iff.mpr (hfull.sorted hplain.tidy)⟩

theorem isKept_transition {v : Json} {t : Transition} (hv : v.Legible) (h : Row.toTransition v = .ok t) :
    IsKept room Row.toTransition Transition.toJson t := by
  have ht := (Row.toTransition_eq_ok_iff.mp h).recordable hv
  have hplain := (t.plain_toJson ht 0).mono room.rows_le
  have hfull := t.isTransition_toJson ht.order fun c hc => (ht.names c hc).1
  exact ⟨⟨_, rfl⟩, hplain, Row.toTransition_eq_ok_iff.mpr (hfull.sorted hplain.tidy)⟩

/-- Rows that a file was read as are read from the octets that are written for them. -/
theorem readOctets_of_readFile {β : Type} {read : Json → Except RowFault β} {write : β → Json} {source : Room}
    {t : Tree} {p : Path} {rows : List β} (hkept : ∀ v x, v.Legible → read v = .ok x → IsKept room read write x)
    (h : readFile source read t p = .ok rows) (path : Text) :
    readOctets room read path (octets write rows) = .ok rows := by
  obtain ⟨_, -, hsource⟩ := readFile_eq_ok_iff.mp h
  refine readOctets_octets (fun x hx => ?_) path
  obtain ⟨v, hv, hread⟩ := exists_of_mem_readOctets hsource x hx
  exact hkept v x hv hread

end Recording

end TransitionAudit
