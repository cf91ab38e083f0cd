import TransitionAudit.Audit.Markdown
import TransitionAudit.Proofs.Audit.Grouping
import TransitionAudit.Proofs.Text.Octets

/-!
# What Markdown reports are made of

A report in Markdown has octets as long as its title and the texts of its findings have them: everything else in
it is words and numbers.
-/

namespace TransitionAudit

/-- The texts of a finding that are put into a report as they are. -/
def Finding.texts (f : Finding) : List Text :=
  f.transitionType :: f.ruleId :: f.errorCode.toList ++ f.detail.toList ++ f.violations.map (·.message)

/-- Whether the texts of a finding have octets. -/
def Finding.Encodes (f : Finding) : Prop := ∀ s ∈ f.texts, s.HasOctets

theorem Stamp.hasOctets_text (s : Stamp) : s.text.HasOctets := by
  simp only [Stamp.text]
  split
  · simp
  · refine Text.hasOctets_intercalate (by simp) fun t ht => ?_
    obtain ⟨c, -, rfl⟩ := List.mem_map.mp ht
    cases c <;> simp [Clock.label]

namespace Report

/-! ## Findings -/

section
variable {f : Finding} (h : f.Encodes)
include h

theorem hasOctets_tableRow : (tableRow f).HasOctets := by
  have hrule : f.ruleId.HasOctets := h _ (by simp [Finding.texts])
  have hstatus : f.status.HasOctets := by cases hp : f.passed <;> simp [Finding.status, Finding.verdict, hp]
  simp [tableRow, hrule, hstatus]

theorem hasOctets_failureBullet : (failureBullet f).HasOctets := by
  have hrule : f.ruleId.HasOctets := h _ (by simp [Finding.texts])
  have hcode : ∀ code, f.errorCode = some code → code.HasOctets := fun code hcode =>
    h _ (by simp [Finding.texts, hcode])
  have hdetail : (f.detail.getD "None").HasOctets := by
    cases hd : f.detail with
    | none => simp
    | some detail => exact h _ (by simp [Finding.texts, hd])
  unfold failureBullet
  split
  · simp [hrule, hdetail]
  · simp [hrule, hdetail]
  · rename_i code _ hsome
    simp [hrule, hdetail, hcode _ hsome]

theorem hasOctets_momentLines : ∀ l ∈ momentLines f, l.HasOctets := by
  intro l hl
  obtain ⟨v, hv, hline⟩ := List.mem_filterMap.mp hl
  obtain ⟨m, -, rfl⟩ := Option.map_eq_some_iff.mp hline
  have hmessage : v.message.HasOctets := h _ (by simp [Finding.texts, List.mem_map_of_mem hv])
  simp [m.hasOctets_text, hmessage]

end

/-! ## Lines -/

theorem hasOctets_typeOf {fs : List Finding} (h : ∀ f ∈ fs, f.Encodes) : (typeOf fs).HasOctets := by
  cases fs with
  | nil => simp [typeOf]
  | cons f fs => exact h f List.mem_cons_self f.transitionType (by simp [Finding.texts])

theorem hasOctets_summaryLines (s : Summary) : ∀ l ∈ summaryLines s, l.HasOctets := by
  unfold summaryLines
  cases s.allPassed <;> by_cases herrors : s.errors = 0 <;> simp [herrors]

theorem hasOctets_tableLines {id : Int} {fs : List Finding} (h : ∀ f ∈ fs, f.Encodes) :
    ∀ l ∈ tableLines id fs, l.HasOctets := by
  have hrows : ∀ f ∈ fs, (tableRow f).HasOctets := fun f hf => hasOctets_tableRow (h f hf)
  simp only [tableLines, List.cons_append, List.forall_mem_cons, List.forall_mem_append, List.forall_mem_map]
  simpa [hasOctets_typeOf h] using hrows

theorem hasOctets_failureLines {fs : List Finding} (h : ∀ f ∈ fs, f.Encodes) :
    ∀ l ∈ failureLines fs, l.HasOctets := by
  unfold failureLines
  split
  · simp
  · have hlines : ∀ l ∈ fs.flatMap fun f => failureBullet f :: momentLines f, l.HasOctets := by
      intro l hl
      obtain ⟨f, hf, hl⟩ := List.mem_flatMap.mp hl
      rcases List.mem_cons.mp hl with rfl | hl
      · exact hasOctets_failureBullet (h f hf)
      · exact hasOctets_momentLines (h f hf) l hl
    simp only [List.forall_mem_append]
    exact ⟨⟨by simp, hlines⟩, by simp⟩

theorem hasOctets_resultLines {groups : List (Int × List Finding)}
    (h : ∀ g ∈ groups, ∀ f ∈ g.2, f.Encodes) : ∀ l ∈ resultLines groups, l.HasOctets := by
  unfold resultLines
  split
  · simp
  · intro l hl
    obtain ⟨g, hg, hl⟩ := List.mem_flatMap.mp hl
    exact hasOctets_tableLines (h g hg) l hl

/-- A report in Markdown has octets if its title and the texts of its findings have them. -/
theorem hasOctets_markdown {r : Report} {title : Text} (htitle : title.HasOctets)
    (h : ∀ f ∈ r.findings, f.Encodes) : (r.markdown title).HasOctets := by
  have hgroups : ∀ g ∈ r.byTransition, ∀ f ∈ g.2, f.Encodes := fun g hg f hf =>
    h f (Finding.mem_of_mem_groupBy hg hf)
  have hfailures : ∀ f ∈ r.failures, f.Encodes := fun f hf => h f (List.mem_filter.mp hf).1
  refine Text.hasOctets_intercalate (by simp) ?_
  simp only [markdownLines, List.forall_mem_append]
  refine ⟨⟨⟨⟨?_, hasOctets_summaryLines r.summary⟩, ?_⟩, hasOctets_resultLines hgroups⟩,
    hasOctets_failureLines hfailures⟩
  · simp [htitle]
  · simp

end Report

end TransitionAudit
