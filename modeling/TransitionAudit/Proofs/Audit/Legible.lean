import TransitionAudit.Proofs.Audit.Document
import TransitionAudit.Proofs.Audit.Markdown
import TransitionAudit.Proofs.Audit.Shape
import TransitionAudit.Proofs.Component.Resolution
import TransitionAudit.Proofs.Rule.Violation

/-!
# Legible findings

Recordings and rules are legible if no name in them holds a character as two surrogates, which no text of characters
does, and no number in them is too long to be written. A run puts names into its findings next to words only, so what
it finds in legible recordings with legible rules can be read back from a document.
-/

namespace TransitionAudit

/-! ## Recordings and rules -/

structure WindowState.Legible (s : WindowState) : Prop where
  taken : s.taken.Recordable
  titles : ∀ w ∈ s.windows, Json.Joined w.title
  focused : ∀ f ∈ s.focused, Json.Joined f

structure LayerState.Legible (s : LayerState) : Prop where
  taken : s.taken.Recordable
  names : ∀ l ∈ s.layers, Json.Joined l.name

structure Transition.Legible (t : Transition) : Prop where
  id : Numeral.isWritable t.id = true
  names : ∀ c ∈ t.changes, Json.Joined c.window

structure Matcher.Legible (m : Matcher) : Prop where
  package : Json.Joined m.package
  className : Json.Joined m.className

structure Component.Legible (c : Component) : Prop where
  name : Json.Joined c.name
  matcher : ∀ m, c.origin = .fixed m → m.Legible

structure Rule.Legible (r : Rule) : Prop where
  name : ∀ n ∈ r.name, Json.Joined n
  component : ∀ c ∈ r.component, c.Legible

theorem WindowState.Recordable.legible {s : WindowState} (h : s.Recordable) : s.Legible :=
  ⟨h.taken, fun w hw => (h.titles w hw).2, h.focused⟩

theorem LayerState.Recordable.legible {s : LayerState} (h : s.Recordable) : s.Legible :=
  ⟨h.taken, fun l hl => (h.names l hl).2⟩

theorem Transition.Recordable.legible {t : Transition} (h : t.Recordable) : t.Legible :=
  ⟨h.id, fun c hc => (h.names c hc).2⟩

theorem Component.legible_of_fixed (name package className : String) :
    Component.Legible ⟨name, .fixed ⟨package, className⟩⟩ := by
  refine ⟨Json.joined_ofString _, fun m hm => ?_⟩
  cases hm
  exact ⟨Json.joined_ofString _, Json.joined_ofString _⟩

theorem Component.legible_of_role (role : Role) : Component.Legible ⟨role.component, .fromTransition role⟩ := by
  refine ⟨?_, fun m hm => nomatch hm⟩
  cases role <;> exact Json.joined_ofString _

/-- The components that documents can name are legible. -/
theorem Component.legible_of_mem_known {c : Component} (h : c ∈ known) : c.Legible := by
  simp only [known, List.mem_cons, List.not_mem_nil, or_false] at h
  rcases h with rfl | rfl | rfl | rfl | rfl
  · exact legible_of_role .opening
  · exact legible_of_role .closing
  · exact legible_of_fixed _ _ _
  · exact legible_of_fixed _ _ _
  · exact legible_of_fixed _ _ _

/-! ## Matchers -/

namespace Matcher

theorem Legible.joined_windowName {m : Matcher} (h : m.Legible) : Json.Joined m.windowName := by
  unfold windowName
  split
  · exact h.className
  · exact h.package.append_words_append (Text.hasOctets_ofString _) (by decide) h.className

/-- Package and class are parts of the name; the class may be completed by the package in front of its dot. -/
theorem legible_of_ofName? {name : Text} {m : Matcher} (hname : Json.Joined name) (h : ofName? name = some m) :
    m.Legible := by
  obtain ⟨className, hparts, hclass⟩ := ofName?_eq_some_iff.mp h
  rw [hparts.name_eq, Json.joined_append_iff] at hname
  obtain ⟨hpackage, hrest, -⟩ := hname
  have hshort : Json.Joined className := hrest.tail
  refine ⟨hpackage, ?_⟩
  rw [hclass, inFull]
  split
  · rename_i hdot
    refine Json.joined_append_iff.mpr ⟨hpackage, hshort, fun p _ q hq => ?_⟩
    rw [hdot, Option.mem_some_iff] at hq
    exact Json.not_isSplit_of_right (hq ▸ rfl)
  · exact hshort

theorem legible_nothing : nothing.Legible := ⟨.nil, .nil⟩

end Matcher

theorem Transition.hasOctets_text (t : Transition) : t.text.HasOctets := by
  cases hstate : t.isIncomplete <;>
    simp [text, hstate, Stamp.hasOctets_text, TransitionType.hasOctets_text]

section
variable {t : Transition} (ht : t.Legible)
include ht

theorem Transition.joined_of_mem_namesIn {role : Role} : ∀ window ∈ t.namesIn role, Json.Joined window := by
  rintro window ⟨c, hc, -, rfl⟩
  exact ht.names c hc

theorem Transition.legible_of_resolve {role : Role} {m : Matcher} (h : t.resolve role = .ok m) : m.Legible := by
  rcases namesIn_cases role t with hnone | ⟨window, hone⟩ | hseveral
  · rw [resolve_of_empty hnone] at h
    cases h
  · have hwindow : window ∈ t.namesIn role := by
      rw [hone]
      exact Set.mem_singleton window
    rw [resolve_of_singleton hone, Matcher.parse_eq_ok_iff] at h
    exact Matcher.legible_of_ofName? (joined_of_mem_namesIn ht window hwindow) h
  · rw [resolve_of_nontrivial hseveral] at h
    cases h

theorem Transition.joined_message {role : Role} {fault : ResolutionFault} (h : t.resolve role = .error fault) :
    Json.Joined fault.message := by
  have hrole : role.text.HasOctets := by cases role <;> exact Text.hasOctets_ofString _
  rcases namesIn_cases role t with hnone | ⟨window, hone⟩ | hseveral
  · rw [resolve_of_empty hnone] at h
    cases h
    exact Json.joined_of_hasOctets (by simp [ResolutionFault.message, hrole, hasOctets_text])
  · rw [resolve_of_singleton hone, Matcher.parse_eq_error_iff] at h
    obtain ⟨rfl, -⟩ := h
    exact Json.joined_of_hasOctets (by simp [ResolutionFault.message])
  · rw [resolve_of_nontrivial hseveral] at h
    cases h
    have hwindows : ∀ window ∈ t.windowsIn role, Json.Joined window :=
      fun window hwindow => joined_of_mem_namesIn ht window (mem_windowsIn_iff.mp hwindow)
    refine Json.Joined.words_append (Json.joined_intercalate (Text.hasOctets_ofString _) (by decide) hwindows) ?_
    simp [hrole, hasOctets_text]

end

/-! ## Rules -/

namespace Rule

theorem joined_id {r : Rule} (h : r.Legible) : Json.Joined r.id := by
  have hcheck := Check.hasOctets_name r.check
  have hcomponent : ∀ c ∈ r.component, Json.Joined (r.check.name ++ "(" ++ c.name ++ ")") := fun c hc =>
    ((h.component c hc).name.words_append (by simp [hcheck])).append_words (Text.hasOctets_ofString _)
  unfold id
  split
  · exact Json.joined_of_hasOctets hcheck
  · exact Json.joined_of_hasOctets hcheck
  · rename_i c _ hc
    exact hcomponent c hc
  · rename_i c _ hc
    exact hcomponent c hc
  · rename_i name hname _ _
    exact h.name name hname

section
variable {r : Rule} {t : Transition} (ht : t.Legible)
include ht

theorem legible_of_matcher (hr : r.Legible) {m : Matcher} (h : r.matcher (some t) = .ok m) : m.Legible := by
  unfold matcher at h
  split at h
  · cases h
    exact Matcher.legible_nothing
  · rename_i c hc
    cases horigin : c.origin with
    | fixed m' =>
        simp only [Component.resolve, horigin, Except.ok.injEq] at h
        exact h ▸ (hr.component c hc).matcher m' horigin
    | fromTransition role =>
        simp only [Component.resolve, horigin] at h
        exact Transition.legible_of_resolve ht h

theorem joined_of_matcher {fault : ResolutionFault} (h : r.matcher (some t) = .error fault) :
    Json.Joined fault.message := by
  unfold matcher at h
  split at h
  · cases h
  · rename_i c hc
    cases horigin : c.origin with
    | fixed m' => simp [Component.resolve, horigin] at h
    | fromTransition role =>
        simp only [Component.resolve, horigin] at h
        exact Transition.joined_message ht h

end

end Rule

/-! ## Violations -/

theorem Text.Mentions.joined {name s : Text} (h : Text.Mentions name s) (hname : Json.Joined name) :
    Json.Joined s := by
  induction h with
  | phrase hs => exact Json.joined_of_hasOctets (Check.hasOctets_of_mem_phrases _ hs)
  | name => exact hname
  | append _ hphrase ih => exact ih.append_words (Check.hasOctets_of_mem_phrases _ hphrase)
  | prepend hphrase _ ih => exact ih.words_append (Check.hasOctets_of_mem_phrases _ hphrase)

section
variable {α : Type} [Snapshot α] {name : Text} {seen : α → Option Json} {t : Trace α} {v : Violation}
  (h : v.IsIn name seen t)
include h

theorem Violation.IsIn.hasNames (hseen : ∀ x ∈ t.entries, ∀ e ∈ seen x, e.IsNames) : v.HasNames := by
  cases h with
  | empty nothing => exact ⟨nofun, nofun⟩
  | @snapshot _ x hx about =>
      obtain ⟨-, hobserved, -, s, hexpected, -⟩ := about
      refine ⟨fun e he => ?_, fun e he => hseen x hx e (hobserved ▸ he)⟩
      rw [hexpected, Option.mem_some_iff] at he
      exact he ▸ .one s

theorem Violation.IsIn.legible (hwords : (Snapshot.words α).IsSpoken) (hname : Json.Joined name)
    (hentries : ∀ x ∈ t.entries, (stamp x).Recordable ∧ ∀ e ∈ seen x, e.Legible) : v.toJson.Legible := by
  cases h with
  | empty nothing =>
      exact .obj (forall_mem_members (.str ((Check.mentions_emptySlice hwords name).joined hname)) nofun nofun nofun)
  | @snapshot _ x hx about =>
      obtain ⟨hmoment, hobserved, hmessage, s, hexpected, hs⟩ := about
      obtain ⟨hstamp, hseen⟩ := hentries x hx
      refine .obj (forall_mem_members (.str (hmessage.joined hname)) ?_ ?_ ?_)
      · intro moment hm
        rw [hmoment, Option.mem_some_iff] at hm
        exact hm ▸ Stamp.legible_toJson hstamp
      · intro e he
        rw [hexpected, Option.mem_some_iff] at he
        exact he ▸ .str (hs.joined hname)
      · exact fun e he => hseen e (hobserved ▸ he)

end

/-! ## Scenarios -/

/-- Whether both slices of a scenario are legible. -/
structure Scenario.Legible (s : Scenario) : Prop where
  windows : ∀ x ∈ s.windows.entries, x.Legible
  layers : ∀ x ∈ s.layers.entries, x.Legible

theorem Check.legible_evidence {α : Type} [Snapshot α] {x : α} (h : ∀ name ∈ Snapshot.visible x, Json.Joined name) :
    (Check.evidence x).Legible :=
  .arr (List.forall_mem_map.mpr fun name hname => .str (h name hname))

theorem WindowState.Legible.visible {x : WindowState} (h : x.Legible) :
    ∀ name ∈ Snapshot.visible x, Json.Joined name := by
  intro name hname
  obtain ⟨w, hw, rfl⟩ := List.mem_map.mp hname
  exact h.titles w (List.mem_filter.mp hw).1

theorem LayerState.Legible.visible {x : LayerState} (h : x.Legible) :
    ∀ name ∈ Snapshot.visible x, Json.Joined name := by
  intro name hname
  obtain ⟨l, hl, rfl⟩ := List.mem_map.mp hname
  exact h.names l (List.mem_filter.mp hl).1

section
variable {c : Check} {s : Scenario} {m : Matcher} {v : Violation} (h : c.Finds s m v)
include h

theorem Check.Finds.hasNames : v.HasNames := by
  unfold Finds at h
  split at h
  · refine h.hasNames fun x _ e he => ?_
    obtain ⟨f, -, rfl⟩ := Option.map_eq_some_iff.mp he
    exact .one f
  · refine h.hasNames ?_
    rintro x _ e ⟨⟩
    exact .many _
  · refine h.hasNames ?_
    rintro x _ e ⟨⟩
    exact .many _

theorem Check.Finds.legible (hs : s.Legible) (hm : m.Legible) : v.toJson.Legible := by
  unfold Finds at h
  split at h
  · refine h.legible Side.windows.isSpoken_words hm.joined_windowName fun x hx => ⟨(hs.windows x hx).taken, ?_⟩
    intro e he
    obtain ⟨f, hf, rfl⟩ := Option.map_eq_some_iff.mp he
    exact .str ((hs.windows x hx).focused f hf)
  · refine h.legible Side.windows.isSpoken_words hm.joined_windowName fun x hx => ⟨(hs.windows x hx).taken, ?_⟩
    rintro e ⟨⟩
    exact legible_evidence (hs.windows x hx).visible
  · refine h.legible Side.layers.isSpoken_words hm.joined_windowName fun x hx => ⟨(hs.layers x hx).taken, ?_⟩
    rintro e ⟨⟩
    exact legible_evidence (hs.layers x hx).visible

end

/-! ## Findings -/

theorem ErrorCode.hasOctets_text (c : ErrorCode) : c.text.HasOctets := by
  cases c <;> exact Text.hasOctets_ofString _

theorem Finding.hasOctets_status (f : Finding) : f.status.HasOctets := by
  unfold status verdict
  split <;> exact Text.hasOctets_ofString _

theorem Violation.joined_message {v : Violation} (h : v.toJson.Legible) : Json.Joined v.message := by
  rw [toJson_eq] at h
  cases h with
  | obj values => exact (values ("message", .str v.message) List.mem_cons_self).joined

theorem Finding.legible_header {f : Finding} (h : f.toJson.Legible) :
    (Json.int f.transitionId).Legible ∧ (Json.str f.transitionType).Legible ∧ (Json.str f.ruleId).Legible := by
  rw [toJson_eq] at h
  cases h with
  | obj values =>
      exact ⟨values ("transition_id", .int f.transitionId) (by simp [members]),
        values ("transition_type", .str f.transitionType) (by simp [members]),
        values ("rule_id", .str f.ruleId) (by simp [members])⟩

theorem Finding.hasNames_of_evaluate {t : Transition} {r : Rule} {s : Scenario} :
    ∀ v ∈ (Finding.of t r (r.evaluate s)).violations, v.HasNames := by
  intro v hv
  cases hanswer : r.evaluate s with
  | error fault =>
      rw [hanswer] at hv
      cases hv
  | ok violations =>
      obtain ⟨m, -, hrun⟩ := Rule.evaluate_eq_ok_iff.mp hanswer
      rw [hanswer, Finding.of_violations] at hv
      exact (Check.finds_of_run hrun v hv).hasNames

section
variable {t : Transition} {r : Rule} (ht : t.Legible) (hr : r.Legible)
include ht hr

theorem Finding.legible_of {answer : Except EvaluationFault (List Violation)}
    (herror : ∀ fault, answer = .error fault → Json.Joined fault.message)
    (hok : ∀ violations, answer = .ok violations → ∀ v ∈ violations, v.toJson.Legible) :
    (Finding.of t r answer).toJson.Legible := by
  have htype : (Json.str t.type.text).Legible := .str t.type.joined_text
  have hrule : (Json.str r.id).Legible := .str (Rule.joined_id hr)
  have hstatus : ∀ f : Finding, (Json.str f.status).Legible := fun f =>
    .str (Json.joined_of_hasOctets f.hasOctets_status)
  cases answer with
  | error fault =>
      refine .obj (forall_mem_members (.int ht.id) htype hrule (hstatus _) (.arr nofun) ?_ ?_)
      · rintro _ ⟨⟩
        exact .str (herror fault rfl)
      · rintro _ ⟨⟩
        exact .str (Json.joined_of_hasOctets (ErrorCode.hasOctets_text _))
  | ok violations =>
      have hall := hok violations rfl
      cases violations with
      | nil => exact .obj (forall_mem_members (.int ht.id) htype hrule (hstatus _) (.arr nofun) nofun nofun)
      | cons v rest =>
          refine .obj (forall_mem_members (.int ht.id) htype hrule (hstatus _) ?_ ?_ nofun)
          · exact .arr (List.forall_mem_map.mpr hall)
          · rintro _ ⟨⟩
            refine .str (Json.joined_intercalate (Text.hasOctets_ofString _) (by decide) ?_)
            exact List.forall_mem_map.mpr fun v hv => Violation.joined_message (hall v hv)

/-- What a legible rule finds in legible slices is legible. -/
theorem Finding.legible_of_evaluate {w : WindowTrace} {l : LayerTrace} (hw : ∀ x ∈ w.entries, stamp x ≤ t.stop)
    (hl : ∀ x ∈ l.entries, stamp x ≤ t.stop) (hs : Scenario.Legible ⟨some t, w, l⟩) :
    (Finding.of t r (r.evaluate ⟨some t, w, l⟩)).toJson.Legible := by
  unfold Rule.evaluate
  cases hm : r.matcher (some t) with
  | error fault =>
      refine legible_of ht hr ?_ nofun
      rintro _ ⟨⟩
      exact Rule.joined_of_matcher ht hm
  | ok m =>
      obtain ⟨violations, hrun⟩ := Check.run_ok hw hl r.check m
      simp only [hrun]
      refine legible_of ht hr nofun ?_
      rintro _ ⟨⟩ v hv
      exact (Check.finds_of_run hrun v hv).legible hs (Rule.legible_of_matcher ht hr hm)

end

end TransitionAudit
