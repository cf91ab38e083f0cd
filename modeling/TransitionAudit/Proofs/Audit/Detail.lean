import TransitionAudit.Proofs.Audit.Shape
import TransitionAudit.Proofs.Component.Resolution
import TransitionAudit.Proofs.Rule.Violation
import TransitionAudit.Proofs.Text.OneLine

/-!
# What details take from names

The detail of a finding is put together from phrases, numerals and names of windows. So what starts with a line feed,
and is not what a message goes on with behind a name, stands in a detail only if it stands in the name of a window of
the transition that the finding is about.
-/

namespace TransitionAudit

/-! ## Texts on one line -/

theorem TransitionType.oneLine_text (t : TransitionType) : t.text.OneLine := by
  refine Text.oneLine_intercalate (by simp) fun s hs => ?_
  obtain ⟨m, -, rfl⟩ := List.mem_map.mp hs
  cases m <;> simp [Mode.name]

theorem Stamp.oneLine_text (s : Stamp) : s.text.OneLine := by
  simp only [Stamp.text]
  split
  · simp
  · refine Text.oneLine_intercalate (by simp) fun t ht => ?_
    obtain ⟨c, -, rfl⟩ := List.mem_map.mp ht
    cases c <;> simp [Clock.label]

theorem Transition.oneLine_text (t : Transition) : t.text.OneLine := by
  cases hincomplete : t.isIncomplete <;>
    simp [Transition.text, hincomplete, t.type.oneLine_text, t.start.oneLine_text, t.stop.oneLine_text]

theorem Role.oneLine_text (r : Role) : r.text.OneLine := by
  cases r <;> simp [Role.text]

theorem Check.oneLine_of_mem_phrases : ∀ s ∈ phrases, s.OneLine := by decide

theorem Matcher.oneLine_nothing : nothing.windowName.OneLine := by decide

theorem Component.oneLine_of_mem_known {c : Component} (hc : c ∈ known) {m : Matcher} (h : c.origin = .fixed m) :
    m.windowName.OneLine := by
  simp only [known, List.mem_cons, List.not_mem_nil, or_false] at hc
  rcases hc with rfl | rfl | rfl | rfl | rfl <;> cases h <;> decide

/-! ## Foreign stretches -/

/-- Whether a stretch of text starts with a line feed and is nothing that a message goes on with behind a name: no
separator stands in it, and no phrase starts with the end of it. -/
structure Text.IsForeign (p : Text) : Prop where
  start : ∃ rest, p = .char '\n' :: rest
  apart : ∀ a ∈ ([.char ',', .char ';', .char '/', .char '.'] : Text), a ∉ p
  unsaid : ∀ phrase ∈ Check.phrases, ∀ q, q <:+ p → q ≠ [] → ¬ q <+: phrase

namespace Text

theorem IsForeign.of_tails {rest : Text}
    (apart : ∀ a ∈ ([.char ',', .char ';', .char '/', .char '.'] : Text), a ∉ CodePoint.char '\n' :: rest)
    (unsaid : ∀ phrase ∈ Check.phrases, ∀ q ∈ List.tails (CodePoint.char '\n' :: rest), q ≠ [] → ¬ q <+: phrase) :
    IsForeign (.char '\n' :: rest) :=
  ⟨⟨rest, rfl⟩, apart, fun phrase hphrase q hq => unsaid phrase hphrase q ((List.mem_tails _ _).mpr hq)⟩

variable {p : Text} (hp : p.IsForeign)
include hp

theorem IsForeign.not_infix {s : Text} (hs : s.OneLine) : ¬ p <:+: s := by
  obtain ⟨rest, rfl⟩ := hp.start
  exact fun h => hs (h.subset List.mem_cons_self)

theorem IsForeign.infix_of_append {s t : Text} (hs : s.OneLine) (h : p <:+: s ++ t) : p <:+: t := by
  obtain ⟨rest, rfl⟩ := hp.start
  exact List.infix_of_infix_append h hs

theorem IsForeign.exists_of_intercalate {separator : Text} {ts : List Text} (h : p <:+: List.intercalate separator ts)
    (hseparator : separator = ", " ∨ separator = "; ") : ∃ t ∈ ts, p <:+: t := by
  have hcomma := hp.apart (.char ',') (by simp)
  have hsemicolon := hp.apart (.char ';') (by simp)
  obtain ⟨rest, rfl⟩ := hp.start
  rcases hseparator with rfl | rfl
  · exact List.exists_infix_of_infix_intercalate h (by decide) hcomma
  · exact List.exists_infix_of_infix_intercalate h (by decide) hsemicolon

/-- A message holds it only if the name does that the message mentions. -/
theorem Mentions.infix_name {name s : Text} (h : Mentions name s) (hs : p <:+: s) : p <:+: name := by
  induction h with
  | phrase hphrase => exact absurd hs (hp.not_infix (Check.oneLine_of_mem_phrases _ hphrase))
  | name => exact hs
  | append _ hphrase ih =>
      rcases List.infix_append_iff_ne_nil.mp hs with hs | hs | ⟨l, q, -, hne, rfl, -, hprefix⟩
      · exact ih hs
      · exact absurd hs (hp.not_infix (Check.oneLine_of_mem_phrases _ hphrase))
      · exact absurd hprefix (hp.unsaid _ hphrase q (List.suffix_append l q) hne)
  | prepend hphrase _ ih => exact ih (hp.infix_of_append (Check.oneLine_of_mem_phrases _ hphrase) hs)

end Text

/-! ## Names of windows -/

section
variable {p : Text} (hp : p.IsForeign) {t : Transition} {r : Rule} {m : Matcher}
include hp

theorem Matcher.infix_of_ofName? {name : Text} (h : ofName? name = some m) (hm : p <:+: m.windowName) :
    p <:+: name := by
  obtain ⟨className, hparts, hclass⟩ := ofName?_eq_some_iff.mp h
  rw [hparts.name_eq]
  rw [windowName_of_package hparts.package_ne_nil] at hm
  have hpackage : m.package <:+: m.package ++ .char '/' :: className := (List.prefix_append _ _).isInfix
  have hshort : className <:+: m.package ++ .char '/' :: className :=
    ((List.suffix_cons _ _).trans (List.suffix_append _ _)).isInfix
  rcases List.infix_or_infix_of_append_cons hm (hp.apart _ (by simp)) with hm | hm
  · exact hm.trans hpackage
  · -- the class may be completed by the package in front of its dot
    rw [hclass, inFull] at hm
    split at hm
    · rename_i hdot
      obtain ⟨rest, rfl⟩ := List.head?_eq_some_iff.mp hdot
      rcases List.infix_or_infix_of_append_cons hm (hp.apart _ (by simp)) with hm | hm
      · exact hm.trans hpackage
      · exact (hm.trans (List.suffix_cons _ _).isInfix).trans hshort
    · exact hm.trans hshort

omit hp in
theorem Transition.exists_of_mem_windowsIn {role : Role} {window : Text} (hwindow : window ∈ t.windowsIn role)
    (h : p <:+: window) : ∃ c ∈ t.changes, p <:+: c.window := by
  obtain ⟨c, hc, -, rfl⟩ := mem_windowsIn_iff.mp hwindow
  exact ⟨c, hc, h⟩

theorem Transition.infix_of_resolve {role : Role} (h : t.resolve role = .ok m) (hm : p <:+: m.windowName) :
    ∃ c ∈ t.changes, p <:+: c.window := by
  rcases namesIn_cases role t with hnone | ⟨window, hone⟩ | hseveral
  · rw [resolve_of_empty hnone] at h
    cases h
  · have hwindow : window ∈ t.windowsIn role := mem_windowsIn_iff.mpr (hone ▸ Set.mem_singleton window)
    rw [resolve_of_singleton hone, Matcher.parse_eq_ok_iff] at h
    exact exists_of_mem_windowsIn hwindow (Matcher.infix_of_ofName? hp h hm)
  · rw [resolve_of_nontrivial hseveral] at h
    cases h

theorem Transition.infix_of_fault {role : Role} {fault : ResolutionFault} (h : t.resolve role = .error fault)
    (hfault : p <:+: fault.message) : ∃ c ∈ t.changes, p <:+: c.window := by
  rcases namesIn_cases role t with hnone | ⟨window, hone⟩ | hseveral
  · rw [resolve_of_empty hnone] at h
    cases h
    exact absurd hfault (hp.not_infix (by simp [ResolutionFault.message, role.oneLine_text, t.oneLine_text]))
  · rw [resolve_of_singleton hone, Matcher.parse_eq_error_iff] at h
    obtain ⟨rfl, -⟩ := h
    exact absurd hfault (hp.not_infix (by simp [ResolutionFault.message]))
  · rw [resolve_of_nontrivial hseveral] at h
    cases h
    have hlist := hp.infix_of_append (by simp [role.oneLine_text, t.oneLine_text]) hfault
    obtain ⟨window, hwindow, hinfix⟩ := hp.exists_of_intercalate hlist (.inl rfl)
    exact exists_of_mem_windowsIn hwindow hinfix

/-! ## Rules -/

variable (hknown : ∀ c ∈ r.component, c ∈ Component.known)
include hknown

theorem Rule.infix_of_matcher (h : r.matcher (some t) = .ok m) (hm : p <:+: m.windowName) :
    ∃ c ∈ t.changes, p <:+: c.window := by
  unfold matcher at h
  split at h
  · cases h
    exact absurd hm (hp.not_infix Matcher.oneLine_nothing)
  · rename_i c hc
    cases horigin : c.origin with
    | fixed m' =>
        simp only [Component.resolve, horigin, Except.ok.injEq] at h
        exact absurd hm (hp.not_infix (Component.oneLine_of_mem_known (hknown c hc) (h ▸ horigin)))
    | fromTransition role =>
        simp only [Component.resolve, horigin] at h
        exact Transition.infix_of_resolve hp h hm

omit hknown in
theorem Rule.infix_of_fault {fault : ResolutionFault} (h : r.matcher (some t) = .error fault)
    (hfault : p <:+: fault.message) : ∃ c ∈ t.changes, p <:+: c.window := by
  unfold matcher at h
  split at h
  · cases h
  · rename_i c hc
    cases horigin : c.origin with
    | fixed m' => simp [Component.resolve, horigin] at h
    | fromTransition role =>
        simp only [Component.resolve, horigin] at h
        exact Transition.infix_of_fault hp h hfault

/-! ## Details -/

theorem Finding.infix_of_evaluate {w : WindowTrace} {l : LayerTrace} (hw : ∀ x ∈ w.entries, stamp x ≤ t.stop)
    (hl : ∀ x ∈ l.entries, stamp x ≤ t.stop) :
    ∀ d ∈ (Finding.of t r (r.evaluate ⟨some t, w, l⟩)).detail, p <:+: d → ∃ c ∈ t.changes, p <:+: c.window := by
  intro d hd hinfix
  unfold Rule.evaluate at hd
  cases hm : r.matcher (some t) with
  | error fault =>
      simp only [hm, Finding.of, Option.mem_some_iff] at hd
      subst hd
      exact Rule.infix_of_fault hp hm hinfix
  | ok m =>
      obtain ⟨violations, hrun⟩ := Check.run_ok hw hl r.check m
      simp only [hm, hrun] at hd
      cases violations with
      | nil => cases hd
      | cons v rest =>
          simp only [Finding.of, Option.mem_some_iff] at hd
          subst hd
          obtain ⟨message, hmessage, hinfix⟩ := hp.exists_of_intercalate hinfix (.inr rfl)
          obtain ⟨v', hv', rfl⟩ := List.mem_map.mp hmessage
          have hmentions := (Check.finds_of_run hrun v' hv').mentions
          exact Rule.infix_of_matcher hp hknown hm (hmentions.infix_name hp hinfix)

end

/-- What is foreign to messages stands in the detail of a finding only if it stands in the name of a window of the
transition that the finding is about. -/
theorem infix_window_of_audit {table : RuleTable} {windows : WindowTrace} {layers : LayerTrace} {log : TransitionLog}
    {workers : Option Nat} {turns : List Nat} {findings : List Finding}
    (h : (audit table windows layers log workers turns).outcome = .ok findings)
    (hknown : ∀ run ∈ table.plan log, ∀ c ∈ run.2.component, c ∈ Component.known) :
    ∀ f ∈ findings, ∃ t ∈ log.complete, t.id = f.transitionId ∧
      ∀ p : Text, p.IsForeign → ∀ d ∈ f.detail, p <:+: d → ∃ c ∈ t.changes, p <:+: c.window := by
  intro f hf
  obtain ⟨run, hmem, w, l, hs, rfl⟩ := exists_isOf_of_mem h hf
  obtain ⟨hw, hl⟩ := slices_eq_ok_iff.mp hs
  refine ⟨run.1, RuleTable.mem_complete_of_mem_plan hmem, (Finding.of_header _ _ _).1.symm, fun p hp => ?_⟩
  exact Finding.infix_of_evaluate hp (hknown run hmem) (fun x hx => Trace.le_of_mem_within hw hx)
    (fun x hx => Trace.le_of_mem_within hl hx)

end TransitionAudit
