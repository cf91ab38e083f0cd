import TransitionAudit.Proofs.Trace.Latest

/-!
# Traces on the same clocks

Stamps that hold the same clocks are all compared alike, so the order among them is transitive. A trace whose
stamps all hold the same clocks is in order as a whole. It can be cut down to any time windows in any order;
where the ends of the window hold these clocks too, the slice is one block of the trace, and the latest snapshot
at a moment is the last one of all that are not stamped after it.
-/

namespace TransitionAudit

/-! ## Clocks of stamps -/

namespace Stamp

/-- The clocks that were read for a stamp. -/
def clocks (s : Stamp) : List Clock := Clock.all.filter fun c => s.on c != 0

variable {a b c : Stamp}

theorem on_eq_zero_iff_of_clocks (h : a.clocks = b.clocks) (d : Clock) : a.on d = 0 ↔ b.on d = 0 := by
  have hmem : d ∈ a.clocks ↔ d ∈ b.clocks := by rw [h]
  simp only [clocks, List.mem_filter, Clock.mem_all, true_and, bne_iff_ne] at hmem
  exact not_iff_not.mp hmem

theorem sharedClock?_of_clocks (h : a.clocks = b.clocks) : a.sharedClock? b = a.clocks.head? := by
  rw [clocks, List.head?_filter, sharedClock?]
  congr 1
  funext d
  have hzero := on_eq_zero_iff_of_clocks h d
  by_cases ha : a.on d = 0 <;> simp_all

theorem decidedAlike_of_clocks (hab : a.clocks = b.clocks) (hbc : b.clocks = c.clocks) :
    DecidedAlike a b c := by
  have hac := hab.trans hbc
  exact ⟨by rw [sharedClock?_of_clocks hab, sharedClock?_of_clocks hac],
    by rw [sharedClock?_of_clocks hbc, sharedClock?_of_clocks hac, hab]⟩

theorem le_trans_of_clocks (hab : a.clocks = b.clocks) (hbc : b.clocks = c.clocks) (h : a ≤ b) (h' : b ≤ c) :
    a ≤ c :=
  le_trans_of_decidedAlike (decidedAlike_of_clocks hab hbc) h h'

end Stamp

/-! ## Tests on lists in order -/

/-- A test that holds of all elements after one for which it holds keeps the end of a list. -/
theorem filter_eq_dropWhile_of_pairwise {β : Type} {p : β → Bool} {xs : List β}
    (h : xs.Pairwise fun x y => p x = true → p y = true) : xs.filter p = xs.dropWhile fun x => !p x := by
  induction h with
  | nil => rfl
  | @cons x xs hx _ ih =>
      cases hp : p x with
      | true =>
          rw [List.filter_cons_of_pos hp, List.dropWhile_cons_of_neg (by simp [hp]),
            List.filter_eq_self.mpr fun y hy => hx y hy hp]
      | false => rw [List.filter_cons_of_neg (by simp [hp]), List.dropWhile_cons_of_pos (by simp [hp]), ih]

/-! ## Traces -/

namespace Trace

variable {α : Type} [Snapshot α] {t : Trace α} {clocks : List Clock} {start stop moment : Stamp}

/-- Whether all stamps of a trace hold the same clocks. -/
def OnClocks (t : Trace α) (clocks : List Clock) : Prop := ∀ x ∈ t.entries, (stamp x).clocks = clocks

theorem OnClocks.not_fallsBack (h : t.OnClocks clocks) : ¬ FallsBack t.entries := by
  rintro ⟨before, x, between, y, z, after, ht, -, -, -, halike⟩
  have hx := h x (by simp [ht])
  have hy := h y (by simp [ht])
  have hz := h z (by simp [ht])
  exact halike (Stamp.decidedAlike_of_clocks (hx.trans hy.symm) (hy.trans hz.symm))

theorem OnClocks.pairwise (h : t.OnClocks clocks) : t.entries.Pairwise fun x y => stamp x ≤ stamp y :=
  pairwise_of_not_fallsBack (ordered_iff_isChain.mp t.ordered) h.not_fallsBack

theorem OnClocks.not_crossesBack (h : t.OnClocks clocks) (hmoment : moment.clocks = clocks) :
    ¬ t.CrossesBack moment := by
  rintro ⟨before, x, y, after, ht, -, -, -, halike⟩
  have hx := h x (by simp [ht])
  have hy := h y (by simp [ht])
  exact halike (Stamp.decidedAlike_of_clocks (hx.trans hy.symm) (hy.trans hmoment.symm))

theorem OnClocks.pairwise_until (h : t.OnClocks clocks) (hmoment : moment.clocks = clocks) :
    t.entries.Pairwise fun x y => decide (stamp y ≤ moment) = true → decide (stamp x ≤ moment) = true := by
  simpa only [decide_eq_true_eq] using not_crossesBack_iff_pairwise.mp (h.not_crossesBack hmoment)

theorem OnClocks.pairwise_from (h : t.OnClocks clocks) (hmoment : moment.clocks = clocks) :
    t.entries.Pairwise fun x y => decide (moment ≤ stamp x) = true → decide (moment ≤ stamp y) = true := by
  refine h.pairwise.imp_of_mem fun {x y} hx hy hle hmoment' => ?_
  rw [decide_eq_true_eq] at hmoment' ⊢
  exact Stamp.le_trans_of_clocks (hmoment.trans (h x hx).symm) ((h x hx).trans (h y hy).symm) hmoment' hle

/-! ## Slices -/

theorem OnClocks.exists_within (h : t.OnClocks clocks) (start stop : Stamp) :
    ∃ u, t.within start stop = .ok u ∧ u.entries = t.clip start stop ∧ u.OnClocks clocks := by
  obtain ⟨u, hu⟩ := within_ok_iff_ordered.mpr (ordered_clip_of_pairwise h.pairwise start stop)
  have hentries := within_eq_ok_iff.mp hu
  exact ⟨u, hu, hentries, fun x hx => h x (mem_clip.mp (hentries ▸ hx)).1⟩

theorem clip_comm {u v : Trace α} {a b c d : Stamp} (hu : u.entries = t.clip a b) (hv : v.entries = t.clip c d) :
    u.clip c d = v.clip a b := by
  rw [clip, hu, clip, clip, hv, clip, List.filter_filter, List.filter_filter]
  simp only [Bool.and_comm]

theorem OnClocks.clip_isInfix (h : t.OnClocks clocks) (hstart : start.clocks = clocks) (hstop : stop.clocks = clocks) :
    t.clip start stop <:+: t.entries := by
  have hfrom := filter_eq_dropWhile_of_pairwise (h.pairwise_from hstart)
  have huntil := (h.pairwise_until hstop).sublist
    (List.filter_sublist (p := fun x => decide (start ≤ stamp x)))
  have hclip : t.clip start stop =
      (t.entries.filter fun x => decide (start ≤ stamp x)).takeWhile fun x => decide (stamp x ≤ stop) := by
    rw [← filter_eq_takeWhile_of_pairwise huntil, List.filter_filter, clip]
    simp only [Bool.and_comm]
  rw [hclip, hfrom]
  exact (List.takeWhile_prefix _).isInfix.trans (List.dropWhile_suffix _).isInfix

/-- A trace whose stamps all hold the same clocks is in order as a whole and can be cut down to any windows in
any order. Where the ends of the window hold these clocks too, the slice is one block; at a moment that holds
them the latest snapshot is the last one of all that are not stamped after it, if there is any. -/
theorem orderly_of_onClocks (h : t.OnClocks clocks) :
    (t.entries.Pairwise fun x y => stamp x ≤ stamp y) ∧
    (∀ start stop, ∃ u, t.within start stop = .ok u ∧ u.entries = t.clip start stop ∧
      u.within start stop = .ok u) ∧
    (∀ a b c d, ∃ u v w, t.within a b = .ok u ∧ t.within c d = .ok v ∧ u.within c d = .ok w ∧
      v.within a b = .ok w) ∧
    (∀ start stop, start.clocks = clocks → stop.clocks = clocks → t.clip start stop <:+: t.entries) ∧
    ∀ moment, moment.clocks = clocks →
      (∀ x, t.latest moment = .ok x ↔ ∃ before after, t.entries = before ++ x :: after ∧ stamp x ≤ moment ∧
        ∀ y ∈ after, moment < stamp y) ∧
      ∀ fault, t.latest moment = .error fault ↔
        fault = .noneBefore (Snapshot.words α).trace moment ∧ ∀ x ∈ t.entries, moment < stamp x := by
  refine ⟨h.pairwise, ?_, ?_, fun start stop => h.clip_isInfix, fun moment hmoment => ?_⟩
  · intro start stop
    obtain ⟨u, hu, hentries, -⟩ := h.exists_within start stop
    exact ⟨u, hu, hentries, within_of_within hu⟩
  · intro a b c d
    obtain ⟨u, hu, hentries, huniform⟩ := h.exists_within a b
    obtain ⟨v, hv, hentries', -⟩ := h.exists_within c d
    obtain ⟨w, hw, -, -⟩ := huniform.exists_within c d
    have hsame : v.within a b = u.within c d := congrArg of (clip_comm hentries hentries').symm
    exact ⟨u, v, w, hu, hv, hw, hsame.trans hw⟩
  · have hcross := h.not_crossesBack hmoment
    exact ⟨fun x => latest_eq_ok_iff hcross, fun fault => latest_eq_error_iff hcross⟩

/-- Layers at moments on two clocks, of which the last two cannot be told apart. -/
def tiedLayers : LayerTrace where
  entries := [⟨{ elapsed := 1, unix := 9 }, []⟩, ⟨{ elapsed := 3, unix := 2 }, []⟩, ⟨{ elapsed := 3, unix := 7 }, []⟩]
  ordered := by decide

theorem orderly_of_onClocks_tiedLayers :
    tiedLayers.OnClocks [.elapsed, .unix] ∧
      tiedLayers.latest { elapsed := 3, unix := 1 } = .ok ⟨{ elapsed := 3, unix := 7 }, []⟩ ∧
      tiedLayers.clip { elapsed := 2, unix := 1 } { elapsed := 4, unix := 1 } <:+: tiedLayers.entries ∧
      ∃ u, tiedLayers.within { uptime := 5 } { unix := 8 } = .ok u ∧ u.entries = tiedLayers.entries.tail := by
  have huniform : tiedLayers.OnClocks [.elapsed, .unix] := by
    simp only [OnClocks, tiedLayers, List.forall_mem_cons]
    decide
  obtain ⟨-, hwithin, -, hblock, hlatest⟩ := orderly_of_onClocks huniform
  obtain ⟨u, hu, hentries, -⟩ := hwithin { uptime := 5 } { unix := 8 }
  refine ⟨huniform, ?_, hblock _ _ rfl rfl, u, hu, hentries.trans (by decide)⟩
  exact ((hlatest { elapsed := 3, unix := 1 } rfl).1 _).mpr
    ⟨tiedLayers.entries.take 2, [], rfl, by decide, by simp⟩

end Trace

end TransitionAudit
