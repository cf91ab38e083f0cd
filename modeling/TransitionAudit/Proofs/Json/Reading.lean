import TransitionAudit.Proofs.Data.Result
import TransitionAudit.Proofs.Json.Number
import TransitionAudit.Proofs.Json.String

/-!
# Values that are read

Whatever text a value is read from, its integers have no more digits than are written, and no character of
its strings stands there as two surrogates.
-/

namespace TransitionAudit.Json

/-- Whether the integers and strings in a value are such as are read. -/
inductive Legible : Json → Prop
  | null : Legible .null
  | bool (b : Bool) : Legible (.bool b)
  | int {i : Int} (writable : Numeral.isWritable i = true) : Legible (.int i)
  | double (x : Double) : Legible (.double x)
  | str {s : Text} (joined : Joined s) : Legible (.str s)
  | arr {xs : List Json} (items : ∀ x ∈ xs, Legible x) : Legible (.arr xs)
  | obj {ms : List (Text × Json)} (values : ∀ m ∈ ms, Legible m.2) : Legible (.obj ms)

theorem Legible.joined {s : Text} (h : (Json.str s).Legible) : Joined s := by
  cases h with
  | str joined => exact joined

theorem Legible.isWritable {i : Int} (h : (Json.int i).Legible) : Numeral.isWritable i = true := by
  cases h with
  | int writable => exact writable

theorem Legible.mem {xs : List Json} (h : (Json.arr xs).Legible) : ∀ x ∈ xs, x.Legible := by
  cases h with
  | arr items => exact items

theorem Legible.members {ms : List (Text × Json)} (h : (Json.obj ms).Legible) : ∀ m ∈ ms, m.2.Legible := by
  cases h with
  | obj values => exact values

theorem legible_of_number {negative : Bool} {s rest : List Char} {v : Json}
    (h : number negative s = .ok (v, rest)) : v.Legible := by
  cases v with
  | int i => exact .int (isWritable_of_number h)
  | double x => exact .double x
  | _ =>
      unfold number at h
      split at h
      · cases h
      · simp only at h
        split_ifs at h <;> cases h

theorem legible_of_scalar {s rest : List Char} {v : Json} (h : scalar s = some (.ok (v, rest))) :
    v.Legible := by
  unfold scalar at h
  split at h
  case h_4 =>
    obtain ⟨⟨t, after⟩, hbody, heq⟩ := Except.map_eq_ok_iff.mp (Option.some.inj h)
    cases heq
    exact .str (stringBody_joined hbody)
  case h_11 | h_12 => exact legible_of_number (Option.some.inj h)
  all_goals cases h
  · exact .null
  · exact .bool true
  · exact .bool false
  all_goals exact .double _

theorem legible_of_put {name : Text} {v : Json} {ms : List (Text × Json)} (hv : v.Legible)
    (h : ∀ m ∈ ms, m.2.Legible) : ∀ m ∈ put name v ms, m.2.Legible := by
  induction ms with
  | nil => simpa [put] using hv
  | cons m ms ih =>
      obtain ⟨hm, hms⟩ := List.forall_mem_cons.mp h
      rw [put]
      split
      · exact List.forall_mem_cons.mpr ⟨hv, hms⟩
      · exact List.forall_mem_cons.mpr ⟨hm, ih hms⟩

theorem legible_object {ms : List (Text × Json)} (h : ∀ m ∈ ms, m.2.Legible) : (object ms).Legible := by
  have hfold : ∀ acc : List (Text × Json), (∀ m ∈ acc, m.2.Legible) →
      ∀ m ∈ ms.foldl (fun acc m => put m.1 m.2 acc) acc, m.2.Legible := by
    induction ms with
    | nil => exact fun acc hacc => hacc
    | cons m ms ih =>
        obtain ⟨hm, hms⟩ := List.forall_mem_cons.mp h
        exact fun acc hacc => ih hms _ (legible_of_put hm hacc)
  exact .obj (hfold [] (by simp))

/-- One more unit of fuel reads one more value, item or member, and what is read inside of it with less. -/
theorem legible_of_fuel (fuel : Nat) :
    (∀ levels s v rest, value levels fuel s = .ok (v, rest) → v.Legible) ∧
    (∀ levels s xs rest, items levels fuel s = .ok (xs, rest) → ∀ x ∈ xs, x.Legible) ∧
    ∀ levels s ms rest, members levels fuel s = .ok (ms, rest) → ∀ m ∈ ms, m.2.Legible := by
  induction fuel with
  | zero => simp [value, items, members]
  | succ fuel ih =>
      obtain ⟨hvalue, hitems, hmembers⟩ := ih
      refine ⟨fun levels s v rest h => ?_, fun levels s xs rest h => ?_, fun levels s ms rest h => ?_⟩
      · unfold value at h
        split at h
        · rename_i hscalar
          exact legible_of_scalar (hscalar.trans (congrArg some h))
        · split at h
          · cases h
          · split at h
            · cases h
              exact .arr (by simp)
            · obtain ⟨⟨xs, after⟩, hread, heq⟩ := Except.map_eq_ok_iff.mp h
              cases heq
              exact .arr (hitems _ _ _ _ hread)
          · split at h
            · cases h
              exact .obj (by simp)
            · obtain ⟨⟨ms, after⟩, hread, heq⟩ := Except.map_eq_ok_iff.mp h
              cases heq
              exact legible_object (hmembers _ _ _ _ hread)
          · cases h
      · unfold items at h
        split at h
        · cases h
        · rename_i x after hread
          have hx := hvalue _ _ _ _ hread
          split at h
          · cases h
            exact List.forall_mem_singleton.mpr hx
          · obtain ⟨⟨ys, after⟩, hrest, heq⟩ := Except.map_eq_ok_iff.mp h
            cases heq
            exact List.forall_mem_cons.mpr ⟨hx, hitems _ _ _ _ hrest⟩
          · cases h
      · unfold members at h
        split at h
        · cases h
        · split at h
          · cases h
          · rename_i x after hread
            have hx := hvalue _ _ _ _ hread
            split at h
            · cases h
              exact List.forall_mem_singleton.mpr hx
            · obtain ⟨⟨ys, after⟩, hrest, heq⟩ := Except.map_eq_ok_iff.mp h
              cases heq
              exact List.forall_mem_cons.mpr ⟨hx, hmembers _ _ _ _ hrest⟩
            · cases h

theorem legible_of_read {depth : Nat} {s : List Char} {v : Json} (h : read depth s = .ok v) : v.Legible := by
  unfold read at h
  split at h
  · cases h
  · split at h
    · cases h
    · rename_i x rest hread
      have hx := (legible_of_fuel _).1 _ _ _ _ hread
      split at h
      · cases h
        exact hx
      · cases h

end TransitionAudit.Json
