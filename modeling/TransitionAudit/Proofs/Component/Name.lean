import TransitionAudit.Component.Basic
import Mathlib.Data.List.TakeDrop
import Mathlib.Data.List.TakeWhile

/-!
# Names of components

A name holds a package and a class with its only slash between them. The component of a name is recognised by its
name and by both of its own spellings, wherever they stand, and the short spelling is read back as the component. So
is the full one, unless its class starts with a dot, which is read as standing for the package: that is so for the
names of which both parts start with one.
-/

namespace TransitionAudit

/-- Whether a text holds a single slash, with something on each side of it. -/
def Text.IsComponentName (name : Text) : Prop :=
  name.count (.char '/') = 1 ∧
    ∃ package className : Text, package ≠ [] ∧ className ≠ [] ∧ name = package ++ "/" ++ className

/-- Whether the package and the class of a name both start with a dot. -/
def Text.IsDottedTwice (name : Text) : Prop :=
  ∃ package className : Text, name = "." ++ package ++ "/." ++ className

namespace Matcher

/-! ## The parts of a name -/

/-- A name taken apart at its slash. -/
structure Parts (name package className : Text) : Prop where
  name_eq : name = package ++ .char '/' :: className
  package_ne_nil : package ≠ []
  className_ne_nil : className ≠ []
  notMem_package : CodePoint.char '/' ∉ package
  notMem_className : CodePoint.char '/' ∉ className

/-- Where there is one slash only, none is beside it. -/
theorem parts_of_count {name package className : Text} (hcount : name.count (.char '/') = 1)
    (hname : name = package ++ .char '/' :: className) (hpackage : package ≠ []) (hclass : className ≠ []) :
    Parts name package className := by
  have hsum := hcount
  rw [hname, List.count_append, List.count_cons_self] at hsum
  exact ⟨hname, hpackage, hclass, List.count_eq_zero.mp (by omega), List.count_eq_zero.mp (by omega)⟩

theorem Parts.count {name package className : Text} (h : Parts name package className) :
    name.count (.char '/') = 1 := by
  rw [h.name_eq, List.count_append, List.count_cons_self, List.count_eq_zero.mpr h.notMem_package,
    List.count_eq_zero.mpr h.notMem_className]

theorem isComponentName_iff_parts {name : Text} :
    name.IsComponentName ↔ ∃ package className, Parts name package className := by
  have hslash (package className : Text) : package ++ "/" ++ className = package ++ .char '/' :: className := by
    simp [Text.ofString, Text.ofChars]
  constructor
  · rintro ⟨hcount, package, className, hpackage, hclass, hname⟩
    rw [hslash] at hname
    exact ⟨package, className, parts_of_count hcount hname hpackage hclass⟩
  · rintro ⟨package, className, h⟩
    exact ⟨h.count, package, className, h.package_ne_nil, h.className_ne_nil, h.name_eq.trans (hslash _ _).symm⟩

/-- A class with the package in front if it starts with a dot. -/
def inFull (package className : Text) : Text :=
  if className.head? = some (.char '.') then package ++ className else className

theorem inFull_dot (package rest : Text) : inFull package (.char '.' :: rest) = package ++ .char '.' :: rest := rfl

theorem inFull_of_ne {package className : Text} (h : className.head? ≠ some (.char '.')) :
    inFull package className = className := if_neg h

theorem inFull_eq_self_iff {package className : Text} (hne : package ≠ []) :
    inFull package className = className ↔ className.head? ≠ some (.char '.') := by
  refine ⟨fun h hdot => ?_, inFull_of_ne⟩
  rw [inFull, if_pos hdot] at h
  exact hne (List.append_left_eq_self.mp h)

theorem ofName?_of_parts {name package className : Text} (h : Parts name package className) :
    ofName? name = some ⟨package, inFull package className⟩ := by
  have hbefore : ∀ p ∈ package, decide (p ≠ .char '/') = true := by
    intro p hp
    exact decide_eq_true fun heq => h.notMem_package (heq ▸ hp)
  have htake : name.takeWhile (fun p => decide (p ≠ .char '/')) = package := by
    rw [h.name_eq, List.takeWhile_append_of_pos hbefore, List.takeWhile_cons_of_neg (by simp), List.append_nil]
  have hdrop : name.dropWhile (fun p => decide (p ≠ .char '/')) = .char '/' :: className := by
    rw [h.name_eq, List.dropWhile_append_of_pos hbefore, List.dropWhile_cons_of_neg (by simp)]
  unfold ofName?
  rw [List.span_eq_takeWhile_dropWhile, htake, hdrop]
  simp only [List.isEmpty_eq_false_iff.mpr h.package_ne_nil, List.isEmpty_eq_false_iff.mpr h.className_ne_nil,
    List.contains_eq_mem, h.notMem_className, decide_false, Bool.or_self, Bool.false_eq_true, ↓reduceIte, inFull]
  split <;> rfl

theorem exists_parts_of_ofName? {name : Text} {m : Matcher} (h : ofName? name = some m) :
    ∃ package className, Parts name package className := by
  unfold ofName? at h
  rw [List.span_eq_takeWhile_dropWhile] at h
  split at h
  · cases h
  · rename_i package slash className heq
    obtain ⟨hpackage, hrest⟩ := Prod.mk.inj heq
    have hslash : slash = .char '/' := by
      have hhead := List.head?_dropWhile_not (fun p => decide (p ≠ .char '/')) name
      rw [hrest] at hhead
      simpa using hhead
    split at h
    · cases h
    · rename_i hparts
      simp only [Bool.or_eq_true, List.isEmpty_iff, List.contains_iff_mem, not_or] at hparts
      refine ⟨package, className, ?_, hparts.1.1, hparts.1.2, ?_, hparts.2⟩
      · rw [← hslash, ← hrest, ← hpackage, List.takeWhile_append_dropWhile]
      · rw [← hpackage]
        exact fun hmem => by simpa using List.mem_takeWhile_imp hmem

/-- A name is read exactly if it has its two parts, and the component's class is the one of the name in full. -/
theorem ofName?_eq_some_iff {name : Text} {m : Matcher} :
    ofName? name = some m ↔
      ∃ className, Parts name m.package className ∧ m.className = inFull m.package className := by
  constructor
  · intro h
    obtain ⟨package, className, hparts⟩ := exists_parts_of_ofName? h
    rw [ofName?_of_parts hparts] at h
    cases h
    exact ⟨className, hparts, rfl⟩
  · rintro ⟨className, hparts, hclass⟩
    rw [ofName?_of_parts hparts, ← hclass]

theorem ofName?_eq_none_iff {name : Text} : ofName? name = none ↔ ¬ name.IsComponentName := by
  rw [isComponentName_iff_parts]
  constructor
  · rintro h ⟨package, className, hparts⟩
    rw [ofName?_of_parts hparts] at h
    cases h
  · intro h
    by_contra hsome
    obtain ⟨m, hm⟩ := Option.ne_none_iff_exists'.mp hsome
    exact h (exists_parts_of_ofName? hm)

theorem parse_eq_ok_iff {name : Text} {m : Matcher} : parse name = .ok m ↔ ofName? name = some m := by
  unfold parse
  cases ofName? name <;> simp

theorem parse_eq_error_iff {name : Text} {fault : ResolutionFault} :
    parse name = .error fault ↔ fault = .malformed name ∧ ¬ name.IsComponentName := by
  rw [← ofName?_eq_none_iff]
  unfold parse
  cases ofName? name with
  | none => simp [eq_comm]
  | some m => simp

/-! ## The two spellings -/

theorem windowName_of_package {m : Matcher} (h : m.package ≠ []) :
    m.windowName = m.package ++ .char '/' :: m.className := by
  simp [windowName, h, Text.ofString, Text.ofChars]

theorem shortName_of_dot {m : Matcher} {rest : Text} (hpackage : m.package ≠ [])
    (hclass : m.className = m.package ++ .char '.' :: rest) :
    m.shortName = m.package ++ .char '/' :: .char '.' :: rest := by
  simp [shortName, hpackage, hclass, Text.ofString, Text.ofChars]

/-- Apart from the full spelling there is a short one only if the class starts with the package and a dot. -/
theorem exists_dot_or_shortName_eq (m : Matcher) :
    (m.package ≠ [] ∧ ∃ rest, m.className = m.package ++ .char '.' :: rest) ∨ m.shortName = m.windowName := by
  by_cases h : (!m.package.isEmpty && (m.package ++ ".").isPrefixOf m.className) = true
  · refine .inl ?_
    simp only [Bool.and_eq_true, Bool.not_eq_true', List.isEmpty_eq_false_iff, List.isPrefixOf_iff_prefix] at h
    obtain ⟨hpackage, rest, hrest⟩ := h
    exact ⟨hpackage, rest, by simp [← hrest, Text.ofString, Text.ofChars]⟩
  · exact .inr (if_neg h)

section
variable {m : Matcher} {name : Text} (hclass : m.className ≠ [])
include hclass

theorem recognises_of_windowName (h : m.windowName <:+: name) : m.recognises name = true := by
  unfold recognises
  by_cases hpackage : m.package = []
  · simpa [windowName, hclass, hpackage, Text.occursIn_iff] using h
  · simp [hclass, hpackage, Text.occursIn_iff.mpr h]

theorem recognises_of_shortName (h : m.shortName <:+: name) : m.recognises name = true := by
  rcases exists_dot_or_shortName_eq m with ⟨hpackage, -⟩ | hsame
  · simp [recognises, hclass, hpackage, Text.occursIn_iff.mpr h]
  · exact recognises_of_windowName hclass (hsame ▸ h)

end

/-! ## The component of a name -/

section
variable {name : Text} {m : Matcher} (h : ofName? name = some m)
include h

theorem parts_windowName : Parts m.windowName m.package m.className := by
  obtain ⟨className, hparts, hclass⟩ := ofName?_eq_some_iff.mp h
  refine ⟨windowName_of_package hparts.package_ne_nil, hparts.package_ne_nil, ?_, hparts.notMem_package, ?_⟩
  · rw [hclass, inFull]
    split
    · simp [hparts.package_ne_nil]
    · exact hparts.className_ne_nil
  · rw [hclass, inFull]
    split
    · simp [hparts.notMem_package, hparts.notMem_className]
    · exact hparts.notMem_className

/-- A name is one of the two spellings of its component. -/
theorem eq_windowName_or_eq_shortName : name = m.windowName ∨ name = m.shortName := by
  obtain ⟨className, hparts, hclass⟩ := ofName?_eq_some_iff.mp h
  by_cases hdot : className.head? = some (.char '.')
  · obtain ⟨rest, rfl⟩ := List.head?_eq_some_iff.mp hdot
    exact .inr (by rw [shortName_of_dot hparts.package_ne_nil hclass, hparts.name_eq])
  · rw [inFull_of_ne hdot] at hclass
    exact .inl (by rw [windowName_of_package hparts.package_ne_nil, hclass, hparts.name_eq])

theorem ofName?_shortName : ofName? m.shortName = some m := by
  rcases exists_dot_or_shortName_eq m with ⟨hpackage, rest, hrest⟩ | hsame
  · -- the short class is what is left behind the package, and the package comes back in front of its dot
    have hslash : CodePoint.char '/' ∉ m.package ∧ CodePoint.char '/' ∉ CodePoint.char '.' :: rest := by
      simpa [hrest] using (parts_windowName h).notMem_className
    refine ofName?_eq_some_iff.mpr ⟨.char '.' :: rest, ⟨shortName_of_dot hpackage hrest, hpackage, ?_, ?_, ?_⟩, hrest⟩
    · exact List.cons_ne_nil _ _
    · exact hslash.1
    · exact hslash.2
  · rcases eq_windowName_or_eq_shortName h with hname | hname
    · rw [hsame, ← hname, h]
    · rw [← hname, h]

/-- The full spelling is read with the package in front of a class that starts with a dot. -/
theorem ofName?_windowName : ofName? m.windowName = some ⟨m.package, inFull m.package m.className⟩ :=
  ofName?_of_parts (parts_windowName h)

/-- The full class starts with a dot exactly if it was put together from two parts that do. -/
theorem isDottedTwice_iff : name.IsDottedTwice ↔ m.className.head? = some (.char '.') := by
  have hdots (package className : Text) : "." ++ package ++ "/." ++ className =
      (.char '.' :: package) ++ .char '/' :: .char '.' :: className := by simp [Text.ofString, Text.ofChars]
  obtain ⟨className, hparts, hclass⟩ := ofName?_eq_some_iff.mp h
  constructor
  · rintro ⟨package, rest, hname⟩
    rw [hdots] at hname
    have hdotted := parts_of_count hparts.count hname (List.cons_ne_nil _ _) (List.cons_ne_nil _ _)
    rw [ofName?_of_parts hdotted] at h
    cases h
    rfl
  · intro hdot
    by_cases hshort : className.head? = some (.char '.')
    · obtain ⟨first, package, hpackage⟩ := List.exists_cons_of_ne_nil hparts.package_ne_nil
      obtain ⟨rest, rfl⟩ := List.head?_eq_some_iff.mp hshort
      rw [hclass, inFull_dot, hpackage, List.cons_append, List.head?_cons, Option.some.injEq] at hdot
      exact ⟨package, rest, by rw [hdots, hparts.name_eq, hpackage, hdot]⟩
    · rw [hclass, inFull_of_ne hshort] at hdot
      exact absurd hdot hshort

end

/-- Just the names of components are read. The component of a name recognises every text that holds the name, or one
of its own two spellings, and its short spelling is read as the component again. -/
theorem parse_recognises_spellings (name : Text) :
    ((∃ m, parse name = .ok m) ↔ name.IsComponentName) ∧
    (¬ name.IsComponentName → parse name = .error (.malformed name)) ∧
    ∀ m, parse name = .ok m →
      (∀ before after : Text, m.recognises (before ++ name ++ after) = true ∧
        m.recognises (before ++ m.windowName ++ after) = true ∧
        m.recognises (before ++ m.shortName ++ after) = true) ∧
      parse m.shortName = .ok m := by
  refine ⟨?_, fun hname => parse_eq_error_iff.mpr ⟨rfl, hname⟩, fun m hm => ?_⟩
  · rw [isComponentName_iff_parts]
    constructor
    · rintro ⟨m, hm⟩
      exact exists_parts_of_ofName? (parse_eq_ok_iff.mp hm)
    · rintro ⟨package, className, hparts⟩
      exact ⟨_, parse_eq_ok_iff.mpr (ofName?_of_parts hparts)⟩
  · have h := parse_eq_ok_iff.mp hm
    have hclass : m.className ≠ [] := (parts_windowName h).className_ne_nil
    refine ⟨fun before after => ?_, parse_eq_ok_iff.mpr (ofName?_shortName h)⟩
    have hfull := recognises_of_windowName hclass (List.infix_append before m.windowName after)
    have hshort := recognises_of_shortName hclass (List.infix_append before m.shortName after)
    refine ⟨?_, hfull, hshort⟩
    rcases eq_windowName_or_eq_shortName h with hname | hname
    · rw [hname]
      exact hfull
    · rw [hname]
      exact hshort

/-- The full spelling of a component that was read from a name is read as the component again exactly if the two
parts of the name do not both start with a dot, and the short spelling always is. If they both do, the class is put
behind the package once more. -/
theorem parse_windowName_iff {name : Text} {m : Matcher} (h : parse name = .ok m) :
    (parse m.windowName = .ok m ↔ ¬ name.IsDottedTwice) ∧ parse m.shortName = .ok m ∧
      (name.IsDottedTwice → parse m.windowName = .ok ⟨m.package, m.package ++ m.className⟩) := by
  rw [parse_eq_ok_iff] at h
  have hread := ofName?_windowName h
  have hpackage := (parts_windowName h).package_ne_nil
  refine ⟨?_, parse_eq_ok_iff.mpr (ofName?_shortName h), fun hdotted => ?_⟩
  · calc parse m.windowName = .ok m
      _ ↔ inFull m.package m.className = m.className := by
          rw [parse_eq_ok_iff, hread, Option.some.injEq, Matcher.mk.injEq]
          exact and_iff_right rfl
      _ ↔ m.className.head? ≠ some (.char '.') := inFull_eq_self_iff hpackage
      _ ↔ ¬ name.IsDottedTwice := not_congr (isDottedTwice_iff h).symm
  · rw [parse_eq_ok_iff, hread, inFull, if_pos ((isDottedTwice_iff h).mp hdotted)]

theorem parse_windowName_iff_shortClass :
    parse "a.b/.C" = .ok ⟨"a.b", "a.b.C"⟩ ∧ parse (windowName ⟨"a.b", "a.b.C"⟩) = .ok ⟨"a.b", "a.b.C"⟩ := by
  have hname : parse "a.b/.C" = .ok ⟨"a.b", "a.b.C"⟩ := by rfl
  refine ⟨hname, (parse_windowName_iff hname).1.mpr ?_⟩
  rw [isDottedTwice_iff (parse_eq_ok_iff.mp hname)]
  decide

/-- A component in a package that starts with a dot: its full spelling is that of a name for another component. -/
theorem parse_windowName_dottedPackage :
    parse ".a/.B" = .ok ⟨".a", ".a.B"⟩ ∧ windowName ⟨".a", ".a.B"⟩ = ".a/.a.B" ∧
      parse ".a/.a.B" = .ok ⟨".a", ".a.a.B"⟩ ∧ parse ".a/.a.B" ≠ .ok ⟨".a", ".a.B"⟩ := by
  have hfull : parse ".a/.a.B" = .ok ⟨".a", ".a.a.B"⟩ := by rfl
  refine ⟨by rfl, by decide, hfull, ?_⟩
  rw [hfull, ne_eq, Except.ok.injEq]
  decide

end Matcher

end TransitionAudit
