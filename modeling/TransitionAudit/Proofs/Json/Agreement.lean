import TransitionAudit.Proofs.Json.Reading
import TransitionAudit.Proofs.Json.Sorted

/-!
# Values that agree

Two values agree if they are the same but for the order of the members in their objects. A value without doubles,
whose objects hold each name once, agrees with what its text is read as exactly if its integers and strings are
such as can be read at all.
-/

namespace TransitionAudit.Json

inductive Agrees : Json → Json → Prop
  | same (v : Json) : Agrees v v
  | arr {xs ys : List Json} (length : xs.length = ys.length)
      (items : ∀ (i : Nat) x y, xs[i]? = some x → ys[i]? = some y → Agrees x y) : Agrees (.arr xs) (.arr ys)
  | obj {ms ns : List (Text × Json)} (length : ms.length = ns.length)
      (names : ∀ m ∈ ms, (find? ns m.1).isSome) (values : ∀ m ∈ ms, ∀ w ∈ find? ns m.1, Agrees m.2 w) :
      Agrees (.obj ms) (.obj ns)

/-- Whether a value holds no doubles, has at most so many levels of lists and objects, and names the members of
each object differently. -/
inductive Tidy : Nat → Json → Prop
  | null {levels : Nat} : Tidy levels .null
  | bool {levels : Nat} (b : Bool) : Tidy levels (.bool b)
  | int {levels : Nat} (i : Int) : Tidy levels (.int i)
  | str {levels : Nat} (s : Text) : Tidy levels (.str s)
  | arr {levels : Nat} {xs : List Json} (items : ∀ x ∈ xs, Tidy levels x) : Tidy (levels + 1) (.arr xs)
  | obj {levels : Nat} {ms : List (Text × Json)} (names : (ms.map (·.1)).Nodup) (joined : ∀ m ∈ ms, Joined m.1)
      (values : ∀ m ∈ ms, Tidy levels m.2) : Tidy (levels + 1) (.obj ms)

theorem Tidy.of_sublist {levels : Nat} {ms : List (Text × Json)} {names : List Text} (hnames : names.Nodup)
    (hjoined : ∀ n ∈ names, Joined n) (h : (ms.map (·.1)).Sublist names) (values : ∀ m ∈ ms, Tidy levels m.2) :
    Tidy (levels + 1) (.obj ms) :=
  .obj (hnames.sublist h) (fun _ hm => hjoined _ (h.subset (List.mem_map_of_mem hm))) values

theorem Tidy.plain {levels : Nat} {v : Json} (h : Tidy levels v) (hv : v.Legible) : Plain levels v := by
  induction h with
  | null => exact .null
  | bool b => exact .bool b
  | int i =>
      cases hv with
      | int writable => exact .int writable
  | str s =>
      cases hv with
      | str joined => exact .str joined
  | arr items ih =>
      cases hv with
      | arr legible => exact .arr fun x hx => ih x hx (legible x hx)
  | obj names joined values ih =>
      cases hv with
      | obj legible => exact .obj names joined fun m hm => ih m hm (legible m hm)

theorem Plain.tidy {levels : Nat} {v : Json} (h : Plain levels v) : Tidy levels v := by
  induction h with
  | null => exact .null
  | bool b => exact .bool b
  | int _ => exact .int _
  | str _ => exact .str _
  | arr _ ih => exact .arr ih
  | obj names joined _ ih => exact .obj names joined ih

/-- Sorting the members changes no value. -/
theorem Tidy.agrees_sorted {levels : Nat} {v : Json} (h : Tidy levels v) : v.Agrees v.sorted := by
  induction h with
  | null => exact .same _
  | bool b => exact .same _
  | int i => exact .same _
  | str s => exact .same _
  | @arr levels xs items ih =>
      rw [Json.sorted, sortedItems_eq_map]
      refine .arr (List.length_map _).symm fun i x y hx hy => ?_
      rw [List.getElem?_map, hx, Option.map_some, Option.some.injEq] at hy
      exact hy ▸ ih x (List.mem_of_getElem? hx)
  | @obj levels ms names joined values ih =>
      have hfind : ∀ m ∈ ms, find? (sortMembers (sortedMembers ms)) m.1 = some m.2.sorted := by
        intro m hm
        rw [find?_sorted names, (find?_eq_some_iff names).mpr hm, Option.map_some]
      rw [Json.sorted]
      refine .obj ?_ ?_ ?_
      · rw [(sortMembers_perm _).length_eq, sortedMembers_eq_map, List.length_map]
      · intro m hm
        rw [hfind m hm, Option.isSome_some]
      · intro m hm w hw
        rw [hfind m hm, Option.mem_some_iff] at hw
        exact hw ▸ ih m hm

theorem Agrees.legible {v w : Json} (h : v.Agrees w) (hw : w.Legible) : v.Legible := by
  induction h with
  | same v => exact hw
  | @arr xs ys length items ih =>
      cases hw with
      | arr legible =>
          refine .arr fun x hx => ?_
          obtain ⟨i, hi, rfl⟩ := List.getElem_of_mem hx
          have hy : i < ys.length := length ▸ hi
          exact ih i _ _ (List.getElem?_eq_getElem hi) (List.getElem?_eq_getElem hy)
            (legible _ (List.getElem_mem hy))
  | @obj ms ns length names values ih =>
      cases hw with
      | obj legible =>
          refine .obj fun m hm => ?_
          obtain ⟨w, hfind⟩ := Option.isSome_iff_exists.mp (names m hm)
          obtain ⟨n, hn, rfl⟩ := Option.map_eq_some_iff.mp hfind
          exact ih m hm n.2 hfind (legible n (List.mem_of_find?_eq_some hn))

end TransitionAudit.Json
