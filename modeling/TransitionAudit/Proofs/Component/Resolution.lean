import TransitionAudit.Proofs.Component.Name
import TransitionAudit.Proofs.Data.Distinct
import Mathlib.Data.List.Nodup
import Mathlib.Data.Set.Subsingleton

/-!
# Which app plays a role

What a transition says of the app in a role is the set of the windows that its changes put into the role: none,
several, or the one whose name is the app's. Neither the order of the changes nor repetitions of them matter, nor do
changes of other windows.
-/

namespace TransitionAudit

/-- Whether a text is the name of the screen that is shown while some app starts: the app is written with lower-case
letters and dots, at least one. -/
def Text.IsSplashName (window : Text) : Prop :=
  ∃ app : List Char, app ≠ [] ∧ (∀ c ∈ app, ('a' ≤ c ∧ c ≤ 'z') ∨ c = '.') ∧
    window = "Splash Screen " ++ Text.ofChars app

/-- Whether a change puts its window into the role. -/
def Change.InRole : Role → Change → Prop
  | .opening, c => c.mode = .open ∨ c.mode = .toFront ∧ ¬ c.window.IsSplashName
  | .closing, c => c.mode = .close ∨ c.mode = .toBack

/-- The names of the windows in a role. -/
def Transition.namesIn (role : Role) (t : Transition) : Set Text :=
  {window | ∃ c ∈ t.changes, c.InRole role ∧ c.window = window}

/-! ## Changes in a role -/

theorem isLower_iff {c : Char} : c.isLower = true ↔ 'a' ≤ c ∧ c ≤ 'z' :=
  Bool.and_eq_true_iff.trans (and_congr decide_eq_true_iff decide_eq_true_iff)

theorem isSplashLetter_iff {p : CodePoint} :
    (p.shown.isLower || p = .char '.') = true ↔ ∃ c, p = .char c ∧ (('a' ≤ c ∧ c ≤ 'z') ∨ c = '.') := by
  cases p with
  | char c => simp [CodePoint.shown, isLower_iff]
  | surrogate n =>
      have hshown : '\ufffd'.isLower = false := by decide
      simp [CodePoint.shown, hshown]

theorem forall_isSplashLetter_iff {tail : Text} :
    (∀ p ∈ tail, (p.shown.isLower || p = .char '.') = true) ↔
      ∃ app : List Char, (∀ c ∈ app, ('a' ≤ c ∧ c ≤ 'z') ∨ c = '.') ∧ tail = Text.ofChars app := by
  constructor
  · intro h
    induction tail with
    | nil => exact ⟨[], by simp, rfl⟩
    | cons p tail ih =>
        obtain ⟨hp, htail⟩ := List.forall_mem_cons.mp h
        obtain ⟨c, rfl, hc⟩ := isSplashLetter_iff.mp hp
        obtain ⟨app, happ, rfl⟩ := ih htail
        exact ⟨c :: app, List.forall_mem_cons.mpr ⟨hc, happ⟩, rfl⟩
  · rintro ⟨app, happ, rfl⟩
    exact List.forall_mem_map.mpr fun c hc => isSplashLetter_iff.mpr ⟨c, rfl, happ c hc⟩

theorem isSplashScreen_iff {window : Text} : isSplashScreen window = true ↔ window.IsSplashName := by
  simp only [isSplashScreen, Bool.and_eq_true, List.isPrefixOf_iff_prefix, Bool.not_eq_true', List.isEmpty_eq_false_iff,
    List.all_eq_true, forall_isSplashLetter_iff]
  constructor
  · rintro ⟨⟨⟨tail, rfl⟩, hne⟩, app, happ, htail⟩
    rw [List.drop_left] at hne htail
    subst htail
    exact ⟨app, fun hnil => hne (by rw [hnil]; rfl), happ, rfl⟩
  · rintro ⟨app, hne, happ, rfl⟩
    rw [List.drop_left]
    exact ⟨⟨List.prefix_append _ _, by simpa [Text.ofChars] using hne⟩, app, happ, rfl⟩

theorem Change.plays_iff {role : Role} {c : Change} : c.plays role = true ↔ c.InRole role := by
  cases role with
  | opening => simp [plays, InRole, ← isSplashScreen_iff]
  | closing => simp [plays, InRole]

/-! ## Resolution -/

namespace Transition

variable {role : Role} {t u : Transition} {window : Text}

theorem mem_windowsIn_iff : window ∈ t.windowsIn role ↔ window ∈ t.namesIn role := by
  simp only [windowsIn, List.mem_eraseDups, List.mem_map, List.mem_filter, Change.plays_iff, namesIn,
    Set.mem_ofPred_eq, and_assoc]

theorem nodup_windowsIn : (t.windowsIn role).Nodup := nodup_eraseDups _

theorem resolve_of_empty (h : t.namesIn role = ∅) : t.resolve role = .error (.missing role t) := by
  have hnone : t.windowsIn role = [] := by
    refine List.eq_nil_iff_forall_not_mem.mpr fun window hwindow => ?_
    rw [mem_windowsIn_iff, h] at hwindow
    exact hwindow
  rw [resolve, hnone]

theorem resolve_of_singleton (h : t.namesIn role = {window}) : t.resolve role = Matcher.parse window := by
  have hmem (w : Text) : w ∈ t.windowsIn role ↔ w ∈ [window] := by
    rw [mem_windowsIn_iff, h, Set.mem_singleton_iff, List.mem_singleton]
  have hone : t.windowsIn role = [window] :=
    List.perm_singleton.mp ((List.perm_ext_iff_of_nodup nodup_windowsIn (List.nodup_singleton _)).mpr hmem)
  rw [resolve, hone]

theorem resolve_of_nontrivial (h : (t.namesIn role).Nontrivial) :
    t.resolve role = .error (.ambiguous role t (t.windowsIn role)) := by
  obtain ⟨v, hv, w, hw, hvw⟩ := h
  rw [← mem_windowsIn_iff] at hv hw
  unfold resolve
  split
  · rename_i hnone
    rw [hnone] at hv
    cases hv
  · rename_i only hone
    rw [hone, List.mem_singleton] at hv hw
    exact absurd (hv.trans hw.symm) hvw
  · rfl

/-- A set of names holds none, one, or several. -/
theorem namesIn_cases (role : Role) (t : Transition) :
    t.namesIn role = ∅ ∨ (∃ window, t.namesIn role = {window}) ∨ (t.namesIn role).Nontrivial := by
  rcases (t.namesIn role).eq_empty_or_nonempty with hnone | hsome
  · exact .inl hnone
  · exact .inr hsome.exists_eq_singleton_or_nontrivial

theorem namesIn_congr (h : ∀ c : Change, c.InRole role → (c ∈ u.changes ↔ c ∈ t.changes)) :
    u.namesIn role = t.namesIn role := by
  ext window
  simp only [namesIn, Set.mem_ofPred_eq]
  exact exists_congr fun c => and_congr_left fun hc => h c hc.1

theorem mapError_resolve_congr (h : u.namesIn role = t.namesIn role) :
    (u.resolve role).mapError ResolutionFault.code = (t.resolve role).mapError ResolutionFault.code := by
  rcases namesIn_cases role t with hnone | ⟨window, hone⟩ | hseveral
  · rw [resolve_of_empty hnone, resolve_of_empty (h.trans hnone)]
    rfl
  · rw [resolve_of_singleton hone, resolve_of_singleton (h.trans hone)]
  · rw [resolve_of_nontrivial hseveral, resolve_of_nontrivial (h ▸ hseveral)]
    rfl

/-- Whether a role has no matcher for a reason with this code. -/
def FailsWith (role : Role) (t : Transition) (code : ErrorCode) : Prop :=
  ∃ fault, t.resolve role = .error fault ∧ fault.code = code

theorem failsWith_of_empty {code : ErrorCode} (h : t.namesIn role = ∅) :
    t.FailsWith role code ↔ code = .noComponent := by
  simp [FailsWith, resolve_of_empty h, ResolutionFault.code, eq_comm]

theorem failsWith_of_nontrivial {code : ErrorCode} (h : (t.namesIn role).Nontrivial) :
    t.FailsWith role code ↔ code = .ambiguousComponent := by
  simp [FailsWith, resolve_of_nontrivial h, ResolutionFault.code, eq_comm]

theorem code_of_singleton {code : ErrorCode} (h : t.namesIn role = {window}) (hfails : t.FailsWith role code) :
    code = .malformedName := by
  obtain ⟨fault, hfault, rfl⟩ := hfails
  rw [resolve_of_singleton h] at hfault
  rw [(Matcher.parse_eq_error_iff.mp hfault).1]
  rfl

theorem failsWith_ambiguous_iff : t.FailsWith role .ambiguousComponent ↔ (t.namesIn role).Nontrivial := by
  rcases namesIn_cases role t with hnone | ⟨window, hone⟩ | hseveral
  · simp [failsWith_of_empty hnone, hnone]
  · refine iff_of_false (fun h => ?_) (by simp [hone])
    cases code_of_singleton hone h
  · simp [failsWith_of_nontrivial hseveral, hseveral]

theorem failsWith_missing_iff : t.FailsWith role .noComponent ↔ t.namesIn role = ∅ := by
  rcases namesIn_cases role t with hnone | ⟨window, hone⟩ | hseveral
  · simp [failsWith_of_empty hnone, hnone]
  · refine iff_of_false (fun h => ?_) (by simp [hone])
    cases code_of_singleton hone h
  · simp [failsWith_of_nontrivial hseveral, hseveral.ne_empty]

/-- The matcher of a role is ambiguous if there are several windows in the role, missing if there are none, and else
the one of the only window's name. So is it for all transitions with the same changes in the role, in whatever order
and as often as they come, and whatever else changes. -/
theorem resolve_exact (role : Role) (t : Transition) :
    (t.FailsWith role .ambiguousComponent ↔ (t.namesIn role).Nontrivial) ∧
    (t.FailsWith role .noComponent ↔ t.namesIn role = ∅) ∧
    (∀ window, t.namesIn role = {window} → t.resolve role = Matcher.parse window) ∧
    ∀ u : Transition, (∀ c : Change, c.InRole role → (c ∈ u.changes ↔ c ∈ t.changes)) →
      (u.resolve role).mapError ResolutionFault.code = (t.resolve role).mapError ResolutionFault.code :=
  ⟨failsWith_ambiguous_iff, failsWith_missing_iff, fun _ => resolve_of_singleton,
    fun _ h => mapError_resolve_congr (namesIn_congr h)⟩

-- neither the screen shown at the start nor a second mention makes the app ambiguous
example : resolve .opening ⟨1, {}, {}, .single .open, [⟨"Splash Screen a.b", .toFront⟩, ⟨"a.b/.C", .open⟩,
    ⟨"a.b/.C", .toFront⟩, ⟨"d/.E", .close⟩], false⟩ = .ok ⟨"a.b", "a.b.C"⟩ := by rfl

end Transition

end TransitionAudit
