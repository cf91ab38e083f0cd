import TransitionAudit.Proofs.Json.Number
import TransitionAudit.Proofs.Json.String

/-!
# Values written and read

A value that holds no doubles is read from the text that is written for it, on one line or on many: its
integers are short enough, its strings are no halves of characters, and the names of an object are distinct.
-/

namespace TransitionAudit.Json

/-- Whether a value has at most so many levels of lists and objects, and comes back when it is written and
read. -/
inductive Plain : Nat → Json → Prop
  | null {levels : Nat} : Plain levels .null
  | bool {levels : Nat} (b : Bool) : Plain levels (.bool b)
  | int {levels : Nat} {i : Int} (writable : Numeral.isWritable i = true) : Plain levels (.int i)
  | str {levels : Nat} {s : Text} (joined : Joined s) : Plain levels (.str s)
  | arr {levels : Nat} {xs : List Json} (items : ∀ x ∈ xs, Plain levels x) : Plain (levels + 1) (.arr xs)
  | obj {levels : Nat} {ms : List (Text × Json)} (names : (ms.map (·.1)).Nodup) (joined : ∀ m ∈ ms, Joined m.1)
      (values : ∀ m ∈ ms, Plain levels m.2) : Plain (levels + 1) (.obj ms)

theorem Plain.mono {m n : Nat} {v : Json} (h : Plain m v) (hle : m ≤ n) : Plain n v := by
  induction h generalizing n with
  | null => exact .null
  | bool b => exact .bool b
  | int writable => exact .int writable
  | str joined => exact .str joined
  | arr _ ih =>
      obtain ⟨n, rfl⟩ := Nat.exists_eq_add_of_le' (Nat.le_trans (Nat.le_add_left 1 _) hle)
      exact .arr fun x hx => ih x hx (Nat.le_of_succ_le_succ hle)
  | obj names joined _ ih =>
      obtain ⟨n, rfl⟩ := Nat.exists_eq_add_of_le' (Nat.le_trans (Nat.le_add_left 1 _) hle)
      exact .obj names joined fun x hx => ih x hx (Nat.le_of_succ_le_succ hle)

/-! ## White space -/

/-- Whether the reader takes the layout's separators as such. -/
structure Layout.IsReadable (l : Layout) : Prop where
  comma : ∃ blanks, l.comma = ',' :: blanks ∧ ∀ c ∈ blanks, isSpace c = true
  colon : ∃ blanks, l.colon = ':' :: blanks ∧ ∀ c ∈ blanks, isSpace c = true

theorem compact_isReadable : compact.IsReadable :=
  ⟨⟨[], rfl, List.forall_mem_nil _⟩, ⟨[], rfl, List.forall_mem_nil _⟩⟩

theorem indented_isReadable : indented.IsReadable :=
  ⟨⟨[], rfl, List.forall_mem_nil _⟩, ⟨[' '], rfl, List.forall_mem_singleton.mpr rfl⟩⟩

theorem skipSpace_append {blanks : List Char} (h : ∀ c ∈ blanks, isSpace c = true) (s : List Char) :
    skipSpace (blanks ++ s) = skipSpace s := by
  unfold skipSpace
  exact List.dropWhile_append_of_pos h

theorem skipSpace_cons {c : Char} (h : isSpace c = false) (s : List Char) : skipSpace (c :: s) = c :: s := by
  simp [skipSpace, h]

theorem isSpace_of_mem_newline {l : Layout} {depth : Nat} : ∀ c ∈ l.newline depth, isSpace c = true := by
  intro c hc
  unfold Layout.newline at hc
  split at hc
  · cases hc
  · rcases List.mem_cons.mp hc with rfl | hc
    · rfl
    · rw [List.eq_of_mem_replicate hc]
      rfl

theorem endsNumber_of_isSpace {blanks : List Char} (h : ∀ c ∈ blanks, isSpace c = true) {c : Char}
    (hc : c.isDigit = false ∧ c ≠ '.' ∧ c ≠ 'e' ∧ c ≠ 'E') (rest : List Char) :
    EndsNumber (blanks ++ c :: rest) := by
  cases blanks with
  | nil =>
      rintro _ ⟨⟩
      exact hc
  | cons b blanks =>
      rintro _ ⟨⟩
      have hb := h b List.mem_cons_self
      simp only [isSpace, Bool.or_eq_true, decide_eq_true_eq] at hb
      rcases hb with ((rfl | rfl) | rfl) | rfl <;> decide

/-! ## The start of a value -/

/-- Whether a value can start with a character: it is no white space and closes nothing. -/
def StartsValue (c : Char) : Prop := isSpace c = false ∧ c ≠ ']' ∧ c ≠ '\x7d' ∧ c ≠ '\ufeff'

theorem startsValue_of_isDigit {c : Char} (h : c.isDigit = true) : StartsValue c := by
  have hne : ∀ x : Char, x.isDigit = false → c ≠ x := by
    rintro x hx rfl
    simp [hx] at h
  have hspace : isSpace c = false := by
    simp only [isSpace, Bool.or_eq_false_iff, decide_eq_false_iff_not]
    exact ⟨⟨⟨hne _ rfl, hne _ rfl⟩, hne _ rfl⟩, hne _ rfl⟩
  exact ⟨hspace, hne _ rfl, hne _ rfl, hne _ rfl⟩

theorem exists_cons_write {levels : Nat} {v : Json} (h : Plain levels v) (l : Layout) (depth : Nat) :
    ∃ c s, write l depth v = c :: s ∧ StartsValue c := by
  cases h with
  | null => exact ⟨_, _, rfl, by simp [StartsValue, isSpace]⟩
  | bool b => cases b <;> exact ⟨_, _, rfl, by simp [StartsValue, isSpace]⟩
  | @int _ i writable =>
      cases i with
      | ofNat n =>
          obtain ⟨d, ds, hds, hd⟩ := exists_cons_toDigits n
          exact ⟨d, ds, by rw [write, toChars_int_ofNat, hds], startsValue_of_isDigit hd⟩
      | negSucc n => exact ⟨_, _, by rw [write, toChars_int_negSucc], by simp [StartsValue, isSpace]⟩
  | str joined => exact ⟨_, _, rfl, by simp [StartsValue, isSpace]⟩
  | @arr _ xs items => cases xs <;> exact ⟨_, _, rfl, by simp [StartsValue, isSpace]⟩
  | @obj _ ms names joined values => cases ms <;> exact ⟨_, _, rfl, by simp [StartsValue, isSpace]⟩

theorem skipSpace_write {levels : Nat} {v : Json} (h : Plain levels v) (l : Layout) (depth : Nat)
    (s : List Char) : skipSpace (write l depth v ++ s) = write l depth v ++ s := by
  obtain ⟨c, t, hwrite, hc⟩ := exists_cons_write h l depth
  rw [hwrite, List.cons_append, skipSpace_cons hc.1]

theorem length_write_pos {levels : Nat} {v : Json} (h : Plain levels v) (l : Layout) (depth : Nat) :
    0 < (write l depth v).length := by
  obtain ⟨c, t, hwrite, -⟩ := exists_cons_write h l depth
  rw [hwrite]
  exact Nat.succ_pos _

/-! ## Reading what is written -/

/-- Whether a value is read from its text, whatever follows that does not go on with a number. Two units of
fuel for each character are enough: one to start a value, one to go on after it. -/
def IsReadBack (l : Layout) (levels : Nat) (v : Json) : Prop :=
  ∀ (depth fuel : Nat) (rest : List Char), EndsNumber rest → 2 * (write l depth v).length ≤ fuel + 1 →
    value levels fuel (write l depth v ++ rest) = .ok (v, rest)

section
variable {l : Layout} {levels : Nat}

theorem isReadBack_of_scalar {v : Json} (hpos : ∀ depth, 0 < (write l depth v).length)
    (h : ∀ depth rest, EndsNumber rest → scalar (write l depth v ++ rest) = some (.ok (v, rest))) :
    IsReadBack l levels v := by
  intro depth fuel rest hrest hfuel
  have hwrite := hpos depth
  obtain ⟨fuel, rfl⟩ : ∃ n, fuel = n + 1 := Nat.exists_eq_add_one.mpr (by omega)
  simp only [value, h depth rest hrest]

/-- Items are read one after the other, with white space before the closing bracket. -/
theorem items_write (hl : l.IsReadable) {x : Json} {xs : List Json} (hplain : ∀ y ∈ x :: xs, Plain levels y)
    (hread : ∀ y ∈ x :: xs, IsReadBack l levels y) {depth fuel : Nat} {blanks : List Char}
    (hblanks : ∀ c ∈ blanks, isSpace c = true) (rest : List Char)
    (hfuel : 2 * ((write l depth x).length + (writeItems l depth xs).length) ≤ fuel) :
    items levels fuel (write l depth x ++ (writeItems l depth xs ++ (blanks ++ ']' :: rest))) =
      .ok (x :: xs, rest) := by
  induction xs generalizing x fuel with
  | nil =>
      have hpos := length_write_pos (hplain x List.mem_cons_self) l depth
      obtain ⟨fuel, rfl⟩ : ∃ n, fuel = n + 1 := Nat.exists_eq_add_one.mpr (by omega)
      have hends : EndsNumber (blanks ++ ']' :: rest) := endsNumber_of_isSpace hblanks (by decide) rest
      have hvalue := hread x List.mem_cons_self depth fuel _ hends (by omega)
      simp only [writeItems, List.nil_append, items, hvalue, skipSpace_append hblanks]
      rw [skipSpace_cons (by decide)]
      rfl
  | cons y ys ih =>
      obtain ⟨comma, hcomma, hspaces⟩ := hl.comma
      obtain ⟨hplainX, hplainRest⟩ := List.forall_mem_cons.mp hplain
      obtain ⟨hreadX, hreadRest⟩ := List.forall_mem_cons.mp hread
      have hpos := length_write_pos hplainX l depth
      obtain ⟨fuel, rfl⟩ : ∃ n, fuel = n + 1 := Nat.exists_eq_add_one.mpr (by omega)
      simp only [writeItems, hcomma, List.length_append, List.length_cons] at hfuel
      simp only [writeItems, hcomma, List.append_assoc, List.cons_append]
      have hends : ∀ s, EndsNumber (',' :: s) := by
        rintro s _ ⟨⟩
        decide
      have hvalue := fun s => hreadX depth fuel (',' :: s) (hends s) (by omega)
      have hsmaller : 2 * ((write l depth y).length + (writeItems l depth ys).length) ≤ fuel := by omega
      have hrest := ih hplainRest hreadRest hsmaller
      simp only [items, hvalue]
      rw [skipSpace_cons (by decide)]
      simp only [skipSpace_append hspaces, skipSpace_append isSpace_of_mem_newline,
        skipSpace_write (hplainRest y List.mem_cons_self), hrest, Except.map]

theorem memberName_write (hl : l.IsReadable) {name : Text} (hname : Joined name) {v : Json}
    (hv : Plain levels v) (depth : Nat) (rest : List Char) :
    memberName (stringText name ++ (l.colon ++ (write l depth v ++ rest))) =
      .ok (name, write l depth v ++ rest) := by
  obtain ⟨colon, hcolon, hspaces⟩ := hl.colon
  simp only [stringText, List.cons_append, List.append_assoc, List.nil_append, memberName, hcolon,
    stringBody_escapes hname]
  rw [skipSpace_cons (by decide)]
  simp only [skipSpace_append hspaces, skipSpace_write hv]

/-- Members are read one after the other, with white space before the closing brace. -/
theorem members_write (hl : l.IsReadable) {m : Text × Json} {ms : List (Text × Json)}
    (hjoined : ∀ m' ∈ m :: ms, Joined m'.1) (hplain : ∀ m' ∈ m :: ms, Plain levels m'.2)
    (hread : ∀ m' ∈ m :: ms, IsReadBack l levels m'.2) {depth fuel : Nat} {blanks : List Char}
    (hblanks : ∀ c ∈ blanks, isSpace c = true) (rest : List Char)
    (hfuel : 2 * ((write l depth m.2).length + (writeMembers l depth ms).length) ≤ fuel) :
    members levels fuel (stringText m.1 ++ (l.colon ++ (write l depth m.2 ++
      (writeMembers l depth ms ++ (blanks ++ '\x7d' :: rest))))) = .ok (m :: ms, rest) := by
  induction ms generalizing m fuel with
  | nil =>
      have hpos := length_write_pos (hplain m List.mem_cons_self) l depth
      obtain ⟨fuel, rfl⟩ : ∃ n, fuel = n + 1 := Nat.exists_eq_add_one.mpr (by omega)
      have hends : EndsNumber (blanks ++ '\x7d' :: rest) := endsNumber_of_isSpace hblanks (by decide) rest
      have hvalue := hread m List.mem_cons_self depth fuel _ hends (by omega)
      simp only [members, memberName_write hl (hjoined m List.mem_cons_self) (hplain m List.mem_cons_self),
        writeMembers, List.nil_append, hvalue, skipSpace_append hblanks]
      rw [skipSpace_cons (by decide)]
      rfl
  | cons m' ms ih =>
      obtain ⟨comma, hcomma, hspaces⟩ := hl.comma
      obtain ⟨hjoinedM, hjoinedRest⟩ := List.forall_mem_cons.mp hjoined
      obtain ⟨hplainM, hplainRest⟩ := List.forall_mem_cons.mp hplain
      obtain ⟨hreadM, hreadRest⟩ := List.forall_mem_cons.mp hread
      have hpos := length_write_pos hplainM l depth
      obtain ⟨fuel, rfl⟩ : ∃ n, fuel = n + 1 := Nat.exists_eq_add_one.mpr (by omega)
      simp only [writeMembers, hcomma, List.length_append, List.length_cons] at hfuel
      have hends : ∀ s, EndsNumber (',' :: s) := by
        rintro s _ ⟨⟩
        decide
      have hvalue := fun s => hreadM depth fuel (',' :: s) (hends s) (by omega)
      have hsmaller : 2 * ((write l depth m'.2).length + (writeMembers l depth ms).length) ≤ fuel := by omega
      have hrest := ih hjoinedRest hplainRest hreadRest hsmaller
      have hskip : ∀ s, skipSpace (stringText m'.1 ++ s) = stringText m'.1 ++ s := fun s =>
        skipSpace_cons (by decide) _
      simp only [members, memberName_write hl hjoinedM hplainM, writeMembers, hcomma, List.append_assoc,
        List.cons_append, hvalue]
      rw [skipSpace_cons (by decide)]
      simp only [skipSpace_append hspaces, skipSpace_append isSpace_of_mem_newline, hskip, hrest,
        Except.map]

end

/-! ## Objects -/

theorem put_of_notMem {name : Text} {ms : List (Text × Json)} (h : name ∉ ms.map (·.1)) (v : Json) :
    put name v ms = ms ++ [(name, v)] := by
  induction ms with
  | nil => rfl
  | cons m ms ih =>
      rw [List.map_cons, List.mem_cons, not_or] at h
      rw [put, if_neg (Ne.symm h.1), ih h.2, List.cons_append]

theorem foldl_put_of_nodup {ms acc : List (Text × Json)} (h : ((acc ++ ms).map (·.1)).Nodup) :
    ms.foldl (fun acc (n, v) => put n v acc) acc = acc ++ ms := by
  induction ms generalizing acc with
  | nil => simp
  | cons m ms ih =>
      obtain ⟨n, v⟩ := m
      have hnew : n ∉ acc.map (·.1) := by
        rw [List.map_append, List.map_cons, List.nodup_append] at h
        intro hmem
        exact h.2.2 _ hmem _ List.mem_cons_self rfl
      have happend : acc ++ (n, v) :: ms = (acc ++ [(n, v)]) ++ ms := by simp
      simp only [List.foldl_cons, put_of_notMem hnew]
      rw [happend]
      exact ih (happend ▸ h)

theorem object_of_nodup {ms : List (Text × Json)} (h : (ms.map (·.1)).Nodup) : object ms = .obj ms := by
  rw [object, foldl_put_of_nodup (by simpa using h), List.nil_append]

/-! ## Round trip -/

theorem value_bracket {levels fuel : Nat} {s : List Char} (h : ∀ rest, skipSpace s ≠ ']' :: rest) :
    value (levels + 1) (fuel + 1) ('[' :: s) =
      (items levels fuel (skipSpace s)).map fun (xs, rest) => (.arr xs, rest) := by
  simp only [value, scalar]

theorem value_brace {levels fuel : Nat} {s : List Char} (h : ∀ rest, skipSpace s ≠ '\x7d' :: rest) :
    value (levels + 1) (fuel + 1) ('\x7b' :: s) =
      (members levels fuel (skipSpace s)).map fun (ms, rest) => (object ms, rest) := by
  simp [value, scalar]

theorem Plain.isReadBack {l : Layout} (hl : l.IsReadable) {levels : Nat} {v : Json} (h : Plain levels v) :
    IsReadBack l levels v := by
  induction h with
  | null => exact isReadBack_of_scalar (fun _ => Nat.succ_pos _) fun _ _ _ => rfl
  | bool b =>
      cases b with
      | false => exact isReadBack_of_scalar (fun _ => Nat.succ_pos _) fun _ _ _ => rfl
      | true => exact isReadBack_of_scalar (fun _ => Nat.succ_pos _) fun _ _ _ => rfl
  | @int levels i writable =>
      have hplain : Plain levels (.int i) := .int writable
      refine isReadBack_of_scalar (length_write_pos hplain l) fun depth rest hrest => ?_
      rw [write, scalar_int writable hrest]
  | str joined =>
      refine isReadBack_of_scalar (fun _ => Nat.succ_pos _) fun depth rest _ => ?_
      simp only [write, stringText, List.cons_append, List.append_assoc, List.nil_append, scalar,
        stringBody_escapes joined, Except.map]
  | @arr levels xs hitems ih =>
      intro depth fuel rest _ hfuel
      cases xs with
      | nil =>
          obtain ⟨fuel, rfl⟩ : ∃ n, fuel = n + 1 := Nat.exists_eq_add_one.mpr (by simp [write] at hfuel; omega)
          rfl
      | cons x xs =>
          simp only [write, List.length_append, List.length_cons] at hfuel
          obtain ⟨fuel, rfl⟩ : ∃ n, fuel = n + 1 := Nat.exists_eq_add_one.mpr (by omega)
          have hsmaller :
              2 * ((write l (depth + 1) x).length + (writeItems l (depth + 1) xs).length) ≤ fuel := by
            omega
          have hblanks : ∀ c ∈ l.newline depth, isSpace c = true := isSpace_of_mem_newline
          have hread := items_write hl hitems ih hblanks rest hsmaller
          obtain ⟨c, t, hwrite, hc⟩ := exists_cons_write (hitems x List.mem_cons_self) l (depth + 1)
          have hskip : ∀ s, skipSpace (l.newline (depth + 1) ++ (write l (depth + 1) x ++ s)) =
              write l (depth + 1) x ++ s := by
            intro s
            rw [skipSpace_append isSpace_of_mem_newline, skipSpace_write (hitems x List.mem_cons_self)]
          simp only [write, List.cons_append, List.append_assoc, List.nil_append]
          rw [value_bracket, hskip, hread]
          · rfl
          · intro rest heq
            rw [hskip, hwrite] at heq
            exact hc.2.1 (List.cons.inj heq).1
  | @obj levels ms hnames hjoined hvalues ih =>
      intro depth fuel rest _ hfuel
      cases ms with
      | nil =>
          obtain ⟨fuel, rfl⟩ : ∃ n, fuel = n + 1 := Nat.exists_eq_add_one.mpr (by simp [write] at hfuel; omega)
          rfl
      | cons m ms =>
          simp only [write, List.length_append, List.length_cons] at hfuel
          obtain ⟨fuel, rfl⟩ : ∃ n, fuel = n + 1 := Nat.exists_eq_add_one.mpr (by omega)
          have hsmaller :
              2 * ((write l (depth + 1) m.2).length + (writeMembers l (depth + 1) ms).length) ≤ fuel := by
            omega
          have hblanks : ∀ c ∈ l.newline depth, isSpace c = true := isSpace_of_mem_newline
          have hread := members_write hl hjoined hvalues ih hblanks rest hsmaller
          have hskip : ∀ s,
              skipSpace (l.newline (depth + 1) ++ (stringText m.1 ++ s)) = stringText m.1 ++ s := by
            intro s
            rw [skipSpace_append isSpace_of_mem_newline]
            exact skipSpace_cons (by decide) _
          obtain ⟨n, v⟩ := m
          simp only [write, List.cons_append, List.append_assoc, List.nil_append]
          rw [value_brace, hskip, hread]
          · simp only [Except.map, object_of_nodup hnames]
          · intro rest heq
            rw [hskip] at heq
            cases heq

/-- A plain value is read from its text. -/
theorem read_write {l : Layout} (hl : l.IsReadable) {depth : Nat} {v : Json} (h : Plain depth v) :
    read depth (write l 0 v) = .ok v := by
  have hvalue := h.isReadBack hl 0 (2 * (write l 0 v).length + 1) [] (by rintro _ ⟨⟩) (by omega)
  have hskip := skipSpace_write h l 0 []
  rw [List.append_nil] at hvalue hskip
  obtain ⟨c, s, hwrite, hc⟩ := exists_cons_write h l 0
  unfold read
  split
  · rename_i heq
    exact absurd (List.cons.inj (hwrite.symm.trans heq)).1 hc.2.2.2
  · rw [hskip, hvalue]
    rfl

end TransitionAudit.Json
