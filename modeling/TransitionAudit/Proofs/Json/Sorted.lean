import TransitionAudit.Proofs.Json.RoundTrip

/-!
# Texts of values

The text of a value has the members of its objects sorted by name. Sorting changes no member, and a value
that is plain stays so, so what is read from the text is the sorted value. On one line it is printable ASCII.
-/

namespace TransitionAudit.Json

/-! ## Members in another order -/

theorem find?_eq_some_iff {ms : List (Text × Json)} (h : (ms.map (·.1)).Nodup) {name : Text} {v : Json} :
    find? ms name = some v ↔ (name, v) ∈ ms := by
  induction ms with
  | nil => simp [find?]
  | cons m ms ih =>
      obtain ⟨n, w⟩ := m
      rw [List.map_cons, List.nodup_cons] at h
      by_cases hn : n = name
      · subst hn
        have hnew : (n, v) ∉ ms := fun hmem => h.1 (List.mem_map.mpr ⟨_, hmem, rfl⟩)
        simp [find?, hnew, eq_comm]
      · have htail := ih h.2
        simpa [find?, hn, Ne.symm hn] using htail

theorem find?_perm {ms ms' : List (Text × Json)} (hperm : ms.Perm ms') (h : (ms.map (·.1)).Nodup)
    (name : Text) : find? ms name = find? ms' name := by
  have h' : (ms'.map (·.1)).Nodup := (hperm.map _).nodup_iff.mp h
  rw [Option.ext_iff]
  intro v
  rw [find?_eq_some_iff h, find?_eq_some_iff h', hperm.mem_iff]

theorem sortMembers_perm (ms : List (Text × Json)) : (sortMembers ms).Perm ms := List.mergeSort_perm ms _

theorem sortedItems_eq_map (xs : List Json) : sortedItems xs = xs.map sorted := by
  induction xs with
  | nil => rfl
  | cons x xs ih => rw [sortedItems, ih, List.map_cons]

theorem sortedMembers_eq_map (ms : List (Text × Json)) :
    sortedMembers ms = ms.map fun m => (m.1, sorted m.2) := by
  induction ms with
  | nil => rfl
  | cons m ms ih => rw [sortedMembers, ih, List.map_cons]

theorem map_fst_sortedMembers (ms : List (Text × Json)) : (sortedMembers ms).map (·.1) = ms.map (·.1) := by
  rw [sortedMembers_eq_map, List.map_map]
  rfl

/-- A member of a sorted object is the sorted member. -/
theorem find?_sorted {ms : List (Text × Json)} (h : (ms.map (·.1)).Nodup) (name : Text) :
    find? (sortMembers (sortedMembers ms)) name = (find? ms name).map sorted := by
  have hnodup : ((sortMembers (sortedMembers ms)).map (·.1)).Nodup := by
    rw [((sortMembers_perm _).map _).nodup_iff, map_fst_sortedMembers]
    exact h
  rw [find?_perm (sortMembers_perm _) hnodup, sortedMembers_eq_map]
  simp only [find?, List.find?_map, Option.map_map]
  rfl

theorem get_sorted {ms : List (Text × Json)} (h : (ms.map (·.1)).Nodup) (name : Text) :
    get (sortMembers (sortedMembers ms)) name = sorted (get ms name) := by
  rw [get, get, find?_sorted h]
  cases find? ms name <;> rfl

/-- A plain value stays plain when it is sorted. -/
theorem Plain.sorted {levels : Nat} {v : Json} (h : Plain levels v) : Plain levels v.sorted := by
  induction h with
  | null => exact .null
  | bool b => exact .bool b
  | int writable => exact .int writable
  | str joined => exact .str joined
  | arr items ih =>
      rw [Json.sorted, sortedItems_eq_map]
      exact .arr (List.forall_mem_map.mpr ih)
  | @obj levels ms names joined values ih =>
      have hmem : ∀ m ∈ sortMembers (sortedMembers ms), ∃ m' ∈ ms, (m'.1, Json.sorted m'.2) = m := by
        intro m hm
        rwa [(sortMembers_perm _).mem_iff, sortedMembers_eq_map, List.mem_map] at hm
      refine .obj ?_ ?_ ?_
      · rwa [((sortMembers_perm _).map _).nodup_iff, map_fst_sortedMembers]
      · intro m hm
        obtain ⟨m', hm', rfl⟩ := hmem m hm
        exact joined m' hm'
      · intro m hm
        obtain ⟨m', hm', rfl⟩ := hmem m hm
        exact ih m' hm'

/-- What is read from the text of a plain value is the value with its members sorted. -/
theorem read_text {l : Layout} (hl : l.IsReadable) {depth : Nat} {v : Json} (h : Plain depth v) :
    read depth (text l v).toChars = .ok v.sorted := by
  rw [text, Text.toChars_ofChars]
  exact read_write hl h.sorted

/-! ## Printable texts -/

/-- Whether a character is a printable one of ASCII. -/
def IsPlainChar (c : Char) : Prop := 0x20 ≤ c.toNat ∧ c.toNat ≤ 0x7e

instance (c : Char) : Decidable (IsPlainChar c) := inferInstanceAs (Decidable (_ ∧ _))

theorem isPlainChar_of_all {cs : List Char} (h : cs.all (fun c => decide (IsPlainChar c)) = true) :
    ∀ c ∈ cs, IsPlainChar c := by
  simpa using h

theorem isPlainChar_of_isDigit {c : Char} (h : c.isDigit = true) : IsPlainChar c := by
  simp only [Char.isDigit, Bool.and_eq_true, decide_eq_true_eq, ge_iff_le, UInt32.le_iff_toNat_le] at h
  have hlow : 48 ≤ c.toNat := h.1
  have hhigh : c.toNat ≤ 57 := h.2
  exact ⟨by omega, by omega⟩

theorem isPlainChar_of_mem_hex {width n : Nat} : ∀ c ∈ Text.hex width n, IsPlainChar c := by
  have hdigits : ∀ d < 16, IsPlainChar (Nat.digitChar d) := by decide
  induction width generalizing n with
  | zero => simp [Text.hex]
  | succ width ih =>
      intro c hc
      rcases List.mem_append.mp hc with hc | hc
      · exact ih c hc
      · rw [List.mem_singleton.mp hc]
        exact hdigits _ (Nat.mod_lt n (by decide))

theorem isPlainChar_of_mem_unitEscape {n : Nat} : ∀ c ∈ unitEscape n, IsPlainChar c :=
  List.forall_mem_cons.mpr ⟨by decide, List.forall_mem_cons.mpr ⟨by decide, isPlainChar_of_mem_hex⟩⟩

theorem isPlainChar_of_mem_escapePoint {p : CodePoint} : ∀ c ∈ escapePoint p, IsPlainChar c := by
  cases p with
  | surrogate n => exact isPlainChar_of_mem_unitEscape
  | char c =>
      simp only [escapePoint, escapeChar]
      split_ifs with hquote hslash hline hreturn htab hback hfeed hplain hsmall
      iterate 7 exact isPlainChar_of_all rfl
      · rw [Bool.and_eq_true, decide_eq_true_eq, decide_eq_true_eq] at hplain
        exact List.forall_mem_singleton.mpr hplain
      · exact isPlainChar_of_mem_unitEscape
      · exact List.forall_mem_append.mpr ⟨isPlainChar_of_mem_unitEscape, isPlainChar_of_mem_unitEscape⟩

theorem isPlainChar_of_mem_stringText {s : Text} : ∀ c ∈ stringText s, IsPlainChar c := by
  have hbody : ∀ c ∈ s.flatMap escapePoint, IsPlainChar c := by
    intro c hc
    obtain ⟨p, -, hp⟩ := List.mem_flatMap.mp hc
    exact isPlainChar_of_mem_escapePoint c hp
  exact List.forall_mem_cons.mpr ⟨by decide, List.forall_mem_append.mpr ⟨hbody, isPlainChar_of_all rfl⟩⟩

theorem isPlainChar_of_mem_int {i : Int} : ∀ c ∈ (Numeral.int i).toChars, IsPlainChar c := by
  have hdigits : ∀ n, ∀ c ∈ Nat.toDigits 10 n, IsPlainChar c := fun n c hc =>
    isPlainChar_of_isDigit (isDigit_of_mem_toDigits c hc)
  cases i with
  | ofNat n =>
      rw [toChars_int_ofNat]
      exact hdigits n
  | negSucc n =>
      rw [toChars_int_negSucc]
      exact List.forall_mem_cons.mpr ⟨by decide, hdigits _⟩

theorem newline_compact (depth : Nat) : compact.newline depth = [] := rfl

theorem comma_compact : compact.comma = [','] := rfl

theorem colon_compact : compact.colon = [':'] := rfl

theorem isPlainChar_of_mem_writeItems {depth : Nat} {xs : List Json}
    (h : ∀ x ∈ xs, ∀ c ∈ write compact depth x, IsPlainChar c) :
    ∀ c ∈ writeItems compact depth xs, IsPlainChar c := by
  induction xs with
  | nil => simp [writeItems]
  | cons x xs ih =>
      obtain ⟨hx, hxs⟩ := List.forall_mem_cons.mp h
      rw [writeItems, newline_compact, comma_compact, List.append_nil]
      exact List.forall_mem_append.mpr ⟨List.forall_mem_append.mpr ⟨isPlainChar_of_all rfl, hx⟩, ih hxs⟩

theorem isPlainChar_of_mem_writeMembers {depth : Nat} {ms : List (Text × Json)}
    (h : ∀ m ∈ ms, ∀ c ∈ write compact depth m.2, IsPlainChar c) :
    ∀ c ∈ writeMembers compact depth ms, IsPlainChar c := by
  induction ms with
  | nil => simp [writeMembers]
  | cons m ms ih =>
      obtain ⟨hm, hms⟩ := List.forall_mem_cons.mp h
      rw [writeMembers, newline_compact, comma_compact, colon_compact, List.append_nil]
      have hname := List.forall_mem_append.mpr ⟨@isPlainChar_of_all [','] rfl,
        @isPlainChar_of_mem_stringText m.1⟩
      have hcolon := List.forall_mem_append.mpr ⟨hname, @isPlainChar_of_all [':'] rfl⟩
      exact List.forall_mem_append.mpr ⟨List.forall_mem_append.mpr ⟨hcolon, hm⟩, ih hms⟩

/-- On one line a plain value is written in printable ASCII. -/
theorem Plain.isPlainChar {levels : Nat} {v : Json} (h : Plain levels v) (depth : Nat) :
    ∀ c ∈ write compact depth v, IsPlainChar c := by
  induction h generalizing depth with
  | null =>
      rw [write]
      exact isPlainChar_of_all rfl
  | bool b => cases b <;> rw [write] <;> exact isPlainChar_of_all rfl
  | int writable => exact isPlainChar_of_mem_int
  | str joined => exact isPlainChar_of_mem_stringText
  | @arr levels xs items ih =>
      cases xs with
      | nil =>
          rw [write]
          exact isPlainChar_of_all rfl
      | cons x xs =>
          obtain ⟨hx, hxs⟩ := List.forall_mem_cons.mp fun y hy => ih y hy (depth + 1)
          have hitems := List.forall_mem_append.mpr ⟨hx, isPlainChar_of_mem_writeItems hxs⟩
          simp only [write, newline_compact, List.append_nil, List.cons_append, List.nil_append]
          have hclosed := List.forall_mem_append.mpr ⟨hitems, @isPlainChar_of_all [']'] rfl⟩
          exact List.forall_mem_cons.mpr ⟨by decide, hclosed⟩
  | @obj levels ms names joined values ih =>
      cases ms with
      | nil =>
          rw [write]
          exact isPlainChar_of_all rfl
      | cons m ms =>
          obtain ⟨hm, hms⟩ := List.forall_mem_cons.mp fun m' hm' => ih m' hm' (depth + 1)
          have hname := List.forall_mem_append.mpr ⟨@isPlainChar_of_mem_stringText m.1,
            @isPlainChar_of_all [':'] rfl⟩
          have hmembers := List.forall_mem_append.mpr ⟨List.forall_mem_append.mpr ⟨hname, hm⟩,
            isPlainChar_of_mem_writeMembers hms⟩
          obtain ⟨n, v⟩ := m
          simp only [write, newline_compact, colon_compact, List.append_nil, List.cons_append, List.nil_append]
          have hclosed := List.forall_mem_append.mpr ⟨hmembers, @isPlainChar_of_all ['\x7d'] rfl⟩
          exact List.forall_mem_cons.mpr ⟨by decide, hclosed⟩

/-- An object is written between braces. -/
theorem exists_write_obj (l : Layout) (depth : Nat) (ms : List (Text × Json)) :
    ∃ body, write l depth (.obj ms) = '\x7b' :: (body ++ ['\x7d']) := by
  cases ms with
  | nil => exact ⟨[], rfl⟩
  | cons m ms => exact ⟨_, rfl⟩

end TransitionAudit.Json
