import TransitionAudit.Proofs.Data.Result
import TransitionAudit.Proofs.Text.Line
import TransitionAudit.Trace.Recording

/-!
# The lines of a recording

The rows of lines are those of the lines that are not blank, and the fault of lines is that of the first one that
is neither blank nor a row.
-/

namespace TransitionAudit.Recording

variable {β : Type} {room : Room} {read : Json → Except RowFault β} {path : Text} {number : Nat} {line : List Char}
  {ls : List (List Char)}

/-- Whether a line holds a document that is read as a row, with blank characters around it or not. -/
def IsRow (room : Room) (read : Json → Except RowFault β) (line : List Char) (x : β) : Prop :=
  ∃ v, Json.read room.json (Text.trim line) = .ok v ∧ read v = .ok x

/-- Whether a fault keeps a line from being a row: it holds no document, or one that is refused. -/
def LineFails (room : Room) (read : Json → Except RowFault β) (line : List Char) : LineFault → Prop
  | .json fault => Json.read room.json (Text.trim line) = .error fault
  | .row fault => ∃ v, Json.read room.json (Text.trim line) = .ok v ∧ read v = .error fault

/-- Whether the first line that is neither blank nor a row has a number and a fault, all lines being counted from
`start`. -/
def FirstBad (room : Room) (read : Json → Except RowFault β) (start : Nat) (ls : List (List Char)) (number : Nat)
    (fault : LineFault) : Prop :=
  ∃ before line after, ls = before ++ line :: after ∧ number = start + before.length ∧
    (∀ l ∈ before, Text.IsBlankLine l ∨ ∃ x, IsRow room read l x) ∧
    ¬ Text.IsBlankLine line ∧ LineFails room read line fault

/-! ## One line -/

theorem readLine_eq_ok_iff {x : β} : readLine room read (Text.trim line) = .ok x ↔ IsRow room read line x := by
  unfold readLine IsRow
  cases Json.read room.json (Text.trim line) <;> simp [Except.mapError_eq_ok_iff]

theorem readLine_eq_error_iff {fault : LineFault} :
    readLine room read (Text.trim line) = .error fault ↔ LineFails room read line fault := by
  unfold readLine LineFails
  cases fault <;> cases Json.read room.json (Text.trim line) <;> simp [Except.mapError_eq_error_iff]

/-! ## Lines one after the other -/

theorem readLines_cons_of_isBlankLine (h : Text.IsBlankLine line) :
    readLines room read path number (line :: ls) = readLines room read path (number + 1) ls := by
  rw [readLines, Text.trim_eq_nil_iff.mpr h]
  rfl

theorem readLines_cons_of_not_isBlankLine (h : ¬ Text.IsBlankLine line) :
    readLines room read path number (line :: ls) =
      ((readLine room read (Text.trim line)).mapError (.badLine path number) >>= fun x =>
        readLines room read path (number + 1) ls >>= fun xs => .ok (x :: xs)) := by
  have hne : (Text.trim line).isEmpty = false := by simpa [Text.trim_eq_nil_iff] using h
  rw [readLines, hne]
  rfl

/-- Lines are read exactly if those that are not blank are rows. -/
theorem readLines_eq_ok_iff {xs : List β} :
    readLines room read path number ls = .ok xs ↔ List.Forall₂ (IsRow room read) (Text.content ls) xs := by
  induction ls generalizing number xs with
  | nil => simp [readLines, Text.content, eq_comm]
  | cons line ls ih =>
      by_cases h : Text.IsBlankLine line
      · rw [readLines_cons_of_isBlankLine h, Text.content_cons_of_isBlankLine h, ih]
      · rw [readLines_cons_of_not_isBlankLine h, Text.content_cons_of_not_isBlankLine h]
        simp only [Except.bind_eq_ok_iff, Except.mapError_eq_ok_iff, readLine_eq_ok_iff, ih, Except.ok.injEq,
          List.forall₂_cons_left_iff]
        constructor
        · rintro ⟨x, hx, rest, hrest, rfl⟩
          exact ⟨x, rest, hx, hrest, rfl⟩
        · rintro ⟨x, rest, hx, hrest, rfl⟩
          exact ⟨x, hx, rest, hrest, rfl⟩

theorem firstBad_cons_iff {start : Nat} {fault : LineFault} :
    FirstBad room read start (line :: ls) number fault ↔
      (number = start ∧ ¬ Text.IsBlankLine line ∧ LineFails room read line fault) ∨
      (Text.IsBlankLine line ∨ ∃ x, IsRow room read line x) ∧ FirstBad room read (start + 1) ls number fault := by
  constructor
  · rintro ⟨before, bad, after, hls, rfl, hbefore, hbad⟩
    cases before with
    | nil =>
        obtain ⟨rfl, rfl⟩ := List.cons.inj hls
        exact Or.inl ⟨rfl, hbad⟩
    | cons l before =>
        obtain ⟨rfl, rfl⟩ := List.cons.inj hls
        obtain ⟨hl, hbefore⟩ := List.forall_mem_cons.mp hbefore
        exact Or.inr ⟨hl, before, bad, after, rfl, by rw [List.length_cons]; omega, hbefore, hbad⟩
  · rintro (⟨rfl, hbad⟩ | ⟨hl, before, bad, after, rfl, rfl, hbefore, hbad⟩)
    · exact ⟨[], line, ls, rfl, rfl, by simp, hbad⟩
    · exact ⟨line :: before, bad, after, rfl, by rw [List.length_cons]; omega,
        List.forall_mem_cons.mpr ⟨hl, hbefore⟩, hbad⟩

theorem FirstBad.of_prefix {start : Nat} {fault : LineFault} {ls' : List (List Char)}
    (h : FirstBad room read start ls number fault) (hstart : ls <+: ls') : FirstBad room read start ls' number fault := by
  obtain ⟨before, bad, after, rfl, hbad⟩ := h
  obtain ⟨more, rfl⟩ := hstart
  exact ⟨before, bad, after ++ more, by simp, hbad⟩

/-- The fault of lines is that of the first bad one. What comes after it does not matter. -/
theorem readLines_eq_error_iff {fault : RecordingFault} :
    readLines room read path number ls = .error fault ↔
      ∃ n f, FirstBad room read number ls n f ∧ fault = .badLine path n f := by
  induction ls generalizing number with
  | nil => simp [readLines, FirstBad]
  | cons line ls ih =>
      simp only [firstBad_cons_iff]
      by_cases h : Text.IsBlankLine line
      · rw [readLines_cons_of_isBlankLine h, ih]
        simp [h]
      · rw [readLines_cons_of_not_isBlankLine h]
        simp only [Except.bind_eq_error_iff, Except.mapError_eq_error_iff, Except.mapError_eq_ok_iff,
          readLine_eq_ok_iff, readLine_eq_error_iff, ih, h, reduceCtorEq, and_false, exists_false, or_false, false_or,
          not_false_eq_true, true_and]
        constructor
        · rintro (⟨f, hf, rfl⟩ | ⟨x, hx, n, f, hf, rfl⟩)
          · exact ⟨number, f, Or.inl ⟨rfl, hf⟩, rfl⟩
          · exact ⟨n, f, Or.inr ⟨⟨x, hx⟩, hf⟩, rfl⟩
        · rintro ⟨n, f, ⟨rfl, hf⟩ | ⟨⟨x, hx⟩, hf⟩, rfl⟩
          · exact Or.inl ⟨f, hf, rfl⟩
          · exact Or.inr ⟨x, hx, n, f, hf, rfl⟩

/-- Among lines of which one is neither blank nor a row there is a first such line. -/
theorem exists_firstBad (start : Nat) (hline : ¬ Text.IsBlankLine line) (hrow : ∀ x, ¬ IsRow room read line x)
    (hmem : line ∈ ls) : ∃ n f, FirstBad room read start ls n f := by
  cases h : readLines room read [] start ls with
  | ok xs =>
      have hcontent : line ∈ Text.content ls := Text.mem_content.mpr ⟨hmem, hline⟩
      obtain ⟨x, -, hx⟩ := (readLines_eq_ok_iff.mp h).exists_of_mem_left hcontent
      exact absurd hx (hrow x)
  | error fault =>
      obtain ⟨n, f, hbad, -⟩ := readLines_eq_error_iff.mp h
      exact ⟨n, f, hbad⟩

end TransitionAudit.Recording
