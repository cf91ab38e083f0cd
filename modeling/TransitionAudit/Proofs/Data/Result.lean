import Mathlib.Data.List.Forall2

/-!
# Results of steps

When steps that may fail give a result one after the other.
-/

theorem List.Forall₂.exists_of_mem_left {β γ : Type} {R : β → γ → Prop} {xs : List β} {ys : List γ}
    (h : List.Forall₂ R xs ys) {x : β} (hx : x ∈ xs) : ∃ y ∈ ys, R x y := by
  induction h with
  | nil => cases hx
  | cons hxy _ ih =>
      rcases List.mem_cons.mp hx with rfl | hx
      · exact ⟨_, List.mem_cons_self, hxy⟩
      · obtain ⟨y, hy, hxy⟩ := ih hx
        exact ⟨y, List.mem_cons_of_mem _ hy, hxy⟩

theorem List.Forall₂.exists_of_append_left {β γ : Type} {R : β → γ → Prop} {xs xs' : List β} {ys : List γ}
    (h : List.Forall₂ R (xs ++ xs') ys) :
    ∃ zs zs', ys = zs ++ zs' ∧ List.Forall₂ R xs zs ∧ List.Forall₂ R xs' zs' :=
  ⟨ys.take xs.length, ys.drop xs.length, (List.take_append_drop _ _).symm,
    (List.forall₂_take_append ys xs xs' h.flip).flip, (List.forall₂_drop_append ys xs xs' h.flip).flip⟩

section
variable {β γ : Type} {R : γ → β → Prop} {P : β → Prop} {block : β → List γ} {xs : List β}
  (h : ∀ x ∈ xs, ∃ y ys, block x = y :: ys ∧ R y x ∧ (ys = [] ↔ P x))
include h

theorem List.length_le_length_flatMap : xs.length ≤ (xs.flatMap block).length := by
  induction xs with
  | nil => simp
  | cons x xs ih =>
      obtain ⟨⟨y, ys, hblock, -⟩, hxs⟩ := List.forall_mem_cons.mp h
      have hle := ih hxs
      rw [List.flatMap_cons, hblock, List.length_append, List.length_cons, List.length_cons]
      omega

/-- Blocks that start with something for each item are one for each item exactly if there is nothing more in them. -/
theorem List.forall₂_flatMap_iff : List.Forall₂ R (xs.flatMap block) xs ↔ ∀ x ∈ xs, P x := by
  induction xs with
  | nil => simp
  | cons x xs ih =>
      obtain ⟨⟨y, ys, hblock, hy, hys⟩, hxs⟩ := List.forall_mem_cons.mp h
      rw [List.flatMap_cons, hblock, List.cons_append, List.forall₂_cons, List.forall_mem_cons, ← ih hxs, ← hys]
      constructor
      · rintro ⟨-, hrest⟩
        -- anything more would leave more of the blocks than there are items
        have hlength := hrest.length_eq
        have hle := List.length_le_length_flatMap hxs
        rw [List.length_append] at hlength
        obtain rfl : ys = [] := List.eq_nil_of_length_eq_zero (by omega)
        exact ⟨rfl, hrest⟩
      · rintro ⟨rfl, hrest⟩
        exact ⟨hy, hrest⟩

end

namespace Except

variable {ε ε' β γ : Type}

theorem bind_eq_ok_iff {x : Except ε β} {f : β → Except ε γ} {y : γ} :
    x >>= f = .ok y ↔ ∃ z, x = .ok z ∧ f z = .ok y := by
  cases x <;> simp [bind, Except.bind]

theorem bind_eq_error_iff {x : Except ε β} {f : β → Except ε γ} {e : ε} :
    x >>= f = .error e ↔ x = .error e ∨ ∃ z, x = .ok z ∧ f z = .error e := by
  cases x <;> simp [bind, Except.bind]

theorem map_eq_ok_iff {f : β → γ} {x : Except ε β} {y : γ} : x.map f = .ok y ↔ ∃ z, x = .ok z ∧ f z = y := by
  cases x <;> simp [Except.map]

theorem exists_of_toOption_map {f : β → γ} {x : Except ε β} {y : γ} (h : x.toOption.map f = some y) :
    ∃ z, x = .ok z ∧ f z = y := by
  cases x with
  | error e => cases h
  | ok z => exact ⟨z, rfl, Option.some.inj h⟩

theorem mapError_eq_ok_iff {f : ε → ε'} {x : Except ε β} {y : β} : x.mapError f = .ok y ↔ x = .ok y := by
  cases x <;> simp [Except.mapError]

theorem mapError_eq_error_iff {f : ε → ε'} {x : Except ε β} {e : ε'} :
    x.mapError f = .error e ↔ ∃ e', x = .error e' ∧ f e' = e := by
  cases x <;> simp [Except.mapError]

theorem pure_eq_ok_iff {x y : β} : (pure x : Except ε β) = .ok y ↔ x = y := by
  simp [pure, Except.pure]

theorem pure_ne_error {x : β} {e : ε} : (pure x : Except ε β) ≠ .error e := by
  simp [pure, Except.pure]

theorem mapM_eq_ok_iff_forall₂ {f : β → Except ε γ} {xs : List β} {ys : List γ} :
    xs.mapM f = .ok ys ↔ List.Forall₂ (fun x y => f x = .ok y) xs ys := by
  induction xs generalizing ys with
  | nil =>
      rw [List.mapM_nil, pure_eq_ok_iff, List.forall₂_nil_left_iff, eq_comm]
  | cons x xs ih =>
      rw [List.mapM_cons, List.forall₂_cons_left_iff]
      simp only [bind_eq_ok_iff, pure_eq_ok_iff, ih]
      constructor
      · rintro ⟨y, hy, rest, hrest, rfl⟩
        exact ⟨y, rest, hy, hrest, rfl⟩
      · rintro ⟨y, rest, hy, hrest, rfl⟩
        exact ⟨y, hy, rest, hrest, rfl⟩

/-- The results of steps that all succeed are those that some of the steps give. -/
theorem mem_iff_of_forall₂ {f : β → Except ε γ} {xs : List β} {ys : List γ}
    (h : List.Forall₂ (fun x y => f x = .ok y) xs ys) {y : γ} : y ∈ ys ↔ ∃ x ∈ xs, f x = .ok y := by
  induction h with
  | nil => simp
  | cons hxy _ ih =>
      simp only [List.mem_cons, or_and_right, exists_or, exists_eq_left, hxy, ok.injEq, ih, @eq_comm _ y]

/-- Steps fail with the fault of the first one that fails. -/
theorem mapM_eq_error_iff {f : β → Except ε γ} {xs : List β} {e : ε} :
    xs.mapM f = .error e ↔
      ∃ before x after, xs = before ++ x :: after ∧ (∀ y ∈ before, ∃ z, f y = .ok z) ∧ f x = .error e := by
  induction xs with
  | nil => simp [pure_ne_error]
  | cons x xs ih =>
      simp only [List.mapM_cons, bind_eq_error_iff, pure_ne_error, and_false, exists_false, or_false, ih]
      constructor
      · rintro (hx | ⟨z, hz, before, x', after, rfl, hbefore, hx'⟩)
        · exact ⟨[], x, xs, rfl, by simp, hx⟩
        · exact ⟨x :: before, x', after, rfl, List.forall_mem_cons.mpr ⟨⟨z, hz⟩, hbefore⟩, hx'⟩
      · rintro ⟨before, x', after, hxs, hbefore, hx'⟩
        cases before with
        | nil =>
            obtain ⟨rfl, rfl⟩ := List.cons.inj hxs
            exact .inl hx'
        | cons y before =>
            obtain ⟨rfl, rfl⟩ := List.cons.inj hxs
            obtain ⟨⟨z, hz⟩, hbefore⟩ := List.forall_mem_cons.mp hbefore
            exact .inr ⟨z, hz, before, x', after, rfl, hbefore, hx'⟩

theorem exists_mem_of_mapM_eq_error {f : β → Except ε γ} {xs : List β} {e : ε} (h : xs.mapM f = .error e) :
    ∃ x ∈ xs, f x = .error e := by
  obtain ⟨before, x, after, rfl, -, hx⟩ := mapM_eq_error_iff.mp h
  exact ⟨x, by simp, hx⟩

theorem exists_of_mem_of_forall₂ {f : β → Except ε γ} {xs : List β} {ys : List γ}
    (h : List.Forall₂ (fun x y => f x = .ok y) xs ys) {x : β} (hx : x ∈ xs) : ∃ y, f x = .ok y := by
  obtain ⟨y, -, hy⟩ := h.exists_of_mem_left hx
  exact ⟨y, hy⟩

/-! ## Results under a condition -/

/-- Whether a step has a result of some kind, and fails only without a condition. -/
def Yields (safe : Prop) (Q : β → Prop) : Except ε β → Prop
  | .ok b => Q b
  | .error _ => ¬ safe

@[grind =] theorem yields_ok {safe : Prop} {Q : β → Prop} {x : β} : (ok x : Except ε β).Yields safe Q ↔ Q x := Iff.rfl

@[grind =] theorem yields_pure {safe : Prop} {Q : β → Prop} {x : β} :
    (pure x : Except ε β).Yields safe Q ↔ Q x := Iff.rfl

theorem Yields.bind {safe : Prop} {Q : β → Prop} {R : γ → Prop} {x : Except ε β} {f : β → Except ε γ}
    (hx : x.Yields safe Q) (hf : ∀ b, Q b → (f b).Yields safe R) : (x >>= f).Yields safe R := by
  cases x with
  | error => exact hx
  | ok b => exact hf b hx

theorem Yields.mono {safe safe' : Prop} {Q R : β → Prop} {x : Except ε β} (hx : x.Yields safe Q) (hsafe : safe' → safe)
    (hQ : ∀ b, Q b → R b) : x.Yields safe' R := by
  cases x with
  | error => exact mt hsafe hx
  | ok b => exact hQ b hx

theorem Yields.map {safe : Prop} {Q : β → Prop} {R : γ → Prop} {x : Except ε β} {f : β → γ}
    (hx : x.Yields safe Q) (hf : ∀ b, Q b → R (f b)) : (x.map f).Yields safe R := by
  cases x with
  | error => exact hx
  | ok b => exact hf b hx

/-! ## Results in a relation -/

/-- Results that are the same fault, or values in a relation. -/
inductive Related (R : β → γ → Prop) : Except ε β → Except ε γ → Prop
  | ok {x : β} {y : γ} (h : R x y) : Related R (.ok x) (.ok y)
  | error (e : ε) : Related R (.error e) (.error e)

theorem Related.bind {β' γ' : Type} {R : β → γ → Prop} {S : β' → γ' → Prop} {x : Except ε β} {y : Except ε γ}
    {f : β → Except ε β'} {g : γ → Except ε γ'} (h : Related R x y)
    (hfg : ∀ b c, R b c → Related S (f b) (g c)) : Related S (x >>= f) (y >>= g) := by
  cases h with
  | ok h => exact hfg _ _ h
  | error e => exact .error e

end Except
