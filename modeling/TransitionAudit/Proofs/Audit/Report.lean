import TransitionAudit.Proofs.Audit.Legible
import TransitionAudit.Proofs.Rule.Heading
import TransitionAudit.Rule.File

/-!
# Reports of runs

What the report of a run holds in JSON: a group for each complete transition that has rules, in the order of the log,
and in it all findings of the run. From the text of the report the findings are read back as they were.
-/

namespace TransitionAudit

section
variable {table : RuleTable} {windows : WindowTrace} {layers : LayerTrace} {log : TransitionLog}
  {workers : Option Nat} {turns : List Nat} {findings : List Finding}

/-! ## Groups -/

theorem findingsOf_eq_nil_iff {t : Transition} (h : ∃ s, slices t windows layers = .ok s) :
    findingsOf (auditOne table windows layers t) = [] ↔ table.rulesFor t.type = [] := by
  obtain ⟨⟨w, l⟩, hs⟩ := h
  rw [auditOne_of_slices hs]
  exact List.map_eq_nil_iff

theorem byTransition_of_audit (h : (audit table windows layers log workers turns).outcome = .ok findings) :
    Report.byTransition ⟨findings⟩ =
      (log.complete.filter fun t => table.rulesFor t.type ≠ []).map fun t =>
        (t.id, findingsOf (auditOne table windows layers t)) := by
  obtain ⟨hslices, rfl⟩ := audit_eq_ok_iff.mp h
  have hkeys := forall_findingsOf_transitionId table windows layers log
  rw [Report.byTransition, Finding.groupBy_flatMap log.nodup_ids_complete hkeys]
  congr 1
  refine List.filter_congr fun t ht => ?_
  rw [Bool.eq_iff_iff, Bool.not_eq_true', ← Bool.not_eq_true, List.isEmpty_iff, decide_eq_true_eq,
    findingsOf_eq_nil_iff (hslices t ht)]

theorem typeOf_findingsOf {t : Transition} (h : ∃ s, slices t windows layers = .ok s)
    (hrules : table.rulesFor t.type ≠ []) :
    Report.typeOf (findingsOf (auditOne table windows layers t)) = t.type.text := by
  obtain ⟨⟨w, l⟩, hs⟩ := h
  rw [auditOne_of_slices hs]
  obtain ⟨r, rest, hr⟩ := List.exists_cons_of_ne_nil hrules
  simp only [findingsOf, blockOn, assess, hr, List.map_cons, Report.typeOf, List.head?_cons, Option.map_some,
    Option.getD_some]
  exact (Finding.of_header t r _).2.1

/-- The groups of a report are labelled with the transitions, in the order of the log. -/
theorem labels_of_audit (h : (audit table windows layers log workers turns).outcome = .ok findings) :
    (Report.byTransition ⟨findings⟩).map (fun g => (g.1, Report.typeOf g.2)) =
      (log.complete.filter fun t => table.rulesFor t.type ≠ []).map fun t => (t.id, t.type.text) := by
  obtain ⟨hslices, -⟩ := audit_eq_ok_iff.mp h
  rw [byTransition_of_audit h, List.map_map]
  refine List.map_congr_left fun t ht => ?_
  obtain ⟨hcomplete, hrules⟩ := List.mem_filter.mp ht
  have htype := typeOf_findingsOf (hslices t hcomplete) (by simpa using hrules)
  exact congrArg (Prod.mk t.id) htype

/-- No finding is left out of the groups, and their order is that of the findings. -/
theorem flatMap_byTransition (h : (audit table windows layers log workers turns).outcome = .ok findings) :
    (Report.byTransition ⟨findings⟩).flatMap (·.2) = findings := by
  obtain ⟨-, rfl⟩ := audit_eq_ok_iff.mp h
  exact Finding.flatMap_groupBy log.nodup_ids_complete (forall_findingsOf_transitionId table windows layers log)

/-! ## Documents -/

theorem hasNames_of_audit (h : (audit table windows layers log workers turns).outcome = .ok findings) :
    ∀ f ∈ findings, ∀ v ∈ f.violations, v.HasNames := by
  intro f hf
  obtain ⟨run, -, w, l, -, rfl⟩ := exists_isOf_of_mem h hf
  exact Finding.hasNames_of_evaluate

/-- Whether the inputs of a run are legible, and the number of rules that it goes through can be written. -/
structure LegibleRun (table : RuleTable) (windows : WindowTrace) (layers : LayerTrace) (log : TransitionLog) :
    Prop where
  windows : ∀ x ∈ windows.entries, x.Legible
  layers : ∀ x ∈ layers.entries, x.Legible
  transitions : ∀ t ∈ log.complete, t.Legible
  rules : ∀ run ∈ table.plan log, run.2.Legible
  number : Numeral.isWritable (table.plan log).length = true

theorem legible_of_audit (h : (audit table windows layers log workers turns).outcome = .ok findings)
    (hrun : LegibleRun table windows layers log) : ∀ f ∈ findings, f.toJson.Legible := by
  intro f hf
  obtain ⟨run, hmem, w, l, hs, rfl⟩ := exists_isOf_of_mem h hf
  obtain ⟨hw, hl⟩ := slices_eq_ok_iff.mp hs
  have htransition : run.1 ∈ log.complete := RuleTable.mem_complete_of_mem_plan hmem
  refine Finding.legible_of_evaluate (hrun.transitions run.1 htransition) (hrun.rules run hmem)
    (fun x hx => Trace.le_of_mem_within hw hx)
    (fun x hx => Trace.le_of_mem_within hl hx) ⟨fun x hx => hrun.windows x ?_, fun x hx => hrun.layers x ?_⟩
  · exact (Trace.mem_of_mem_within hw hx).1
  · exact (Trace.mem_of_mem_within hl hx).1

end

theorem isWritable_of_le {m n : Nat} (h : m ≤ n) (hn : Numeral.isWritable n = true) :
    Numeral.isWritable m = true := by
  rw [Json.isWritable_iff] at hn ⊢
  exact Nat.lt_of_le_of_lt h hn

namespace Report

/-- No number of a summary is greater than that of the findings. -/
theorem isWritable_of_legible_summary {r : Report} (h : r.summary.toJson.Legible) :
    Numeral.isWritable r.findings.length = true :=
  (h.members ("assertions", .int r.findings.length) (by simp [summary])).isWritable

theorem legible_of_mem_of_legible {r : Report} (h : r.toJson.Legible) : ∀ f ∈ r.findings, f.toJson.Legible := by
  intro f hf
  rw [toJson_eq] at h
  have hgroups := h.members ("transitions", .arr (r.byTransition.map groupJson)) (by simp [members])
  obtain ⟨g, hg, hfg⟩ := Finding.exists_mem_groupBy (·.transitionId) hf
  have hgroup : (groupJson g).Legible := hgroups.mem _ (List.mem_map_of_mem hg)
  have hresults := hgroup.members ("results", .arr (g.2.map Finding.toJson)) (by simp [groupMembers])
  exact hresults.mem _ (List.mem_map_of_mem hfg)

theorem legible_summary {r : Report} (h : Numeral.isWritable r.findings.length = true) :
    r.summary.toJson.Legible := by
  have hint : ∀ n ≤ r.findings.length, (Json.int n).Legible := fun n hn => .int (isWritable_of_le hn h)
  have htransitions := hint _ (Finding.length_groupBy_le (·.transitionId) r.findings)
  have hfailed := hint _ (List.length_filter_le (fun f => !f.passed) r.findings)
  have hpassed := hint _ (Nat.sub_le r.findings.length r.failures.length)
  have herrors := hint _ (List.countP_le_length (p := (·.errorCode.isSome)) (l := r.findings))
  have hstatus : (Json.str (Finding.verdict r.summary.allPassed)).Legible := by
    cases r.summary.allPassed <;> exact .str (Json.joined_ofString _)
  refine .obj ?_
  simpa using ⟨htransitions, hint _ (Nat.le_refl _), hpassed, hfailed, herrors, hstatus⟩

/-- A report is legible exactly if its findings are, and their number can be written. -/
theorem legible_toJson_iff {r : Report} :
    r.toJson.Legible ↔ Numeral.isWritable r.findings.length = true ∧ ∀ f ∈ r.findings, f.toJson.Legible := by
  constructor
  · intro h
    have hsummary := h.members ("summary", r.summary.toJson) (by simp)
    exact ⟨isWritable_of_legible_summary hsummary, legible_of_mem_of_legible h⟩
  · rintro ⟨hnumber, h⟩
    have hgroups : ∀ g ∈ r.byTransition, (groupJson g).Legible := by
      intro g hg
      have hfindings : ∀ f ∈ g.2, f.toJson.Legible := fun f hf => h f (Finding.mem_of_mem_groupBy hg hf)
      obtain ⟨f, hf, hid⟩ := Finding.exists_key_of_mem_groupBy hg
      have hnumber : (Json.int g.1).Legible := hid ▸ (Finding.legible_header (h f hf)).1
      have htype : (Json.str (typeOf g.2)).Legible := by
        cases hfirst : g.2 with
        | nil => exact .str .nil
        | cons f rest => exact (Finding.legible_header (hfindings f (hfirst ▸ List.mem_cons_self))).2.1
      refine .obj ?_
      simpa [groupMembers] using ⟨hnumber, htype, .arr (List.forall_mem_map.mpr hfindings)⟩
    refine .obj ?_
    simpa using ⟨.str (Json.joined_ofString _), legible_summary hnumber, .arr (List.forall_mem_map.mpr hgroups)⟩

end Report

/-- The text of a report is read as a document that agrees with the report, and from which all findings are read
back, exactly if the report is legible. -/
theorem Report.legible_iff_read (room : Room) {table : RuleTable} {windows : WindowTrace} {layers : LayerTrace}
    {log : TransitionLog} {workers : Option Nat} {turns : List Nat} {findings : List Finding}
    (h : (audit table windows layers log workers turns).outcome = .ok findings) :
    (toJson ⟨findings⟩).Legible ↔ ∃ v, Json.read room.json (jsonText ⟨findings⟩).toChars = .ok v ∧
      (toJson ⟨findings⟩).Agrees v ∧ findingsOf? v = some findings := by
  have hnames := hasNames_of_audit h
  have htidy : Json.Tidy 8 (toJson ⟨findings⟩) := tidy_toJson hnames 0
  constructor
  · intro hlegible
    refine ⟨(toJson ⟨findings⟩).sorted, ?_, htidy.agrees_sorted, ?_⟩
    · exact Json.read_text Json.indented_isReadable ((htidy.plain hlegible).mono room.holdsReports)
    · rw [findingsOf?_sorted hnames, flatMap_byTransition h]
  · rintro ⟨v, hread, hagrees, -⟩
    exact hagrees.legible (Json.legible_of_read hread)

/-- The report of a run has a group for each complete transition for which there are rules, in the order of the log
and with the type of the transition, and the findings of its groups are those of the run. If there are numbers and
texts in it that no text of JSON is read as, it does not come back at all. Else the text of the report is read as a
document that agrees with the one it was written for, and the findings in that document are those of the run. This
is so whenever the inputs of the run are legible. -/
theorem Report.read_jsonText (room : Room) {table : RuleTable} {windows : WindowTrace} {layers : LayerTrace}
    {log : TransitionLog} {workers : Option Nat} {turns : List Nat} {findings : List Finding}
    (h : (audit table windows layers log workers turns).outcome = .ok findings) :
    (byTransition ⟨findings⟩).map (fun g => (g.1, typeOf g.2)) =
      ((log.complete.filter fun t => table.rulesFor t.type ≠ []).map fun t => (t.id, t.type.text)) ∧
    (byTransition ⟨findings⟩).flatMap (·.2) = findings ∧
    ((toJson ⟨findings⟩).Legible ↔ ∃ v, Json.read room.json (jsonText ⟨findings⟩).toChars = .ok v ∧
      (toJson ⟨findings⟩).Agrees v ∧ findingsOf? v = some findings) ∧
    (LegibleRun table windows layers log → (toJson ⟨findings⟩).Legible) := by
  refine ⟨labels_of_audit h, flatMap_byTransition h, legible_iff_read room h, fun hrun => ?_⟩
  have hlength : (table.plan log).length = findings.length := (audit_forall₂ h).length_eq
  exact legible_toJson_iff.mpr ⟨hlength ▸ hrun.number, legible_of_audit h hrun⟩

/-! ## A report with an error -/

theorem isWritable_of_lt_ten {n : Nat} (h : n < 10) : Numeral.isWritable n = true := by
  rw [Json.isWritable_iff]
  exact Nat.lt_of_lt_of_le h (Nat.le_self_pow (by decide) 10)

theorem Rule.legible_of_known {r : Rule} (hname : r.name = none) (h : ∀ c ∈ r.component, c ∈ Component.known) :
    r.Legible := by
  refine ⟨?_, fun c hc => Component.legible_of_mem_known (h c hc)⟩
  rw [hname]
  exact nofun

theorem legibleRun_emptyLaunch : LegibleRun .builtIn Trace.empty launchLayers (.single emptyLaunch) := by
  have hrules : ∀ run ∈ RuleTable.builtIn.plan (.single emptyLaunch),
      run.2.name = none ∧ ∀ c ∈ run.2.component, c ∈ Component.known := by
    decide
  have hlayers : ∀ x ∈ launchLayers.entries, (∀ c ∈ Clock.all, x.taken.on c < 10) ∧
      ∀ l ∈ x.layers, ∀ p ∈ l.name, p.isSurrogate = false := by
    decide
  refine ⟨nofun, fun x hx => ⟨fun c => ?_, fun l hl => ?_⟩, fun t ht => ?_,
    fun run hrun => Rule.legible_of_known (hrules run hrun).1 (hrules run hrun).2, ?_⟩
  · exact isWritable_of_lt_ten ((hlayers x hx).1 c c.mem_all)
  · exact Json.joined_of_hasOctets ((hlayers x hx).2 l hl)
  · rw [TransitionLog.complete_single rfl, List.mem_singleton] at ht
    exact ht ▸ ⟨isWritable_of_lt_ten (by decide), nofun⟩
  · exact isWritable_of_lt_ten (by decide)

theorem Report.read_jsonText_emptyLaunch :
    (audit .builtIn Trace.empty launchLayers (.single emptyLaunch) none).outcome = .ok emptyLaunchFindings ∧
      ∃ v, Json.read Room.usual.json (jsonText ⟨emptyLaunchFindings⟩).toChars = .ok v ∧
        (toJson ⟨emptyLaunchFindings⟩).Agrees v ∧ findingsOf? v = some emptyLaunchFindings := by
  have houtcome : (audit .builtIn Trace.empty launchLayers (.single emptyLaunch) none).outcome =
      .ok emptyLaunchFindings := by rfl
  obtain ⟨-, -, hread, hlegible⟩ := read_jsonText .usual houtcome
  exact ⟨houtcome, hread.mp (hlegible legibleRun_emptyLaunch)⟩

/-! ## A report that does not come back -/

/-- The octets of a file of rules, of which there is one, with the name that a scalar stands for. -/
def namedRule (scalar : String) : List UInt8 :=
  ("transitions:\n  ALL:\n  - check: layers_trace_not_empty\n    name: " ++ scalar).toList.flatMap
    Text.Utf8.encodeChar

def ruleFolder (scalar : String) : Tree := ⟨[(["c.yaml"], .file (namedRule scalar))], []⟩

/-- A character as its two surrogates. -/
def halves : Text := [.surrogate 0x3d, .surrogate 0x600]

/-- The character of these surrogates. -/
def whole : Text := [.char (Char.ofNat 0x1f600)]

def namedRows (name : Text) : List (Text × List Rule) :=
  [("ALL", [{ RuleTable.notEmptyRule .layers with name := some name }])]

def namedFindings (name : Text) : List Finding := [⟨1, "OPEN", name, true, none, none, []⟩]

set_option maxRecDepth 10000 in
theorem rows_halves :
    ((ruleFolder "\"\\ud83d\\ude00\"").ruleTable .usual ⟨.single, ["c.yaml"]⟩).toOption.map (·.rows) =
      some (namedRows halves) := by
  decide +kernel

set_option maxRecDepth 10000 in
theorem rows_whole :
    ((ruleFolder "\"\\U0001f600\"").ruleTable .usual ⟨.single, ["c.yaml"]⟩).toOption.map (·.rows) =
      some (namedRows whole) := by
  decide +kernel

set_option maxRecDepth 10000 in
theorem jsonText_halves : Report.jsonText ⟨namedFindings halves⟩ = Report.jsonText ⟨namedFindings whole⟩ := by
  cbv

/-- Two surrogates in the name of a rule are written as the character that they are part of. So the text of the
report is that of another report, and no document that agrees with it is read from this text. -/
theorem Report.read_jsonText_halves :
    ∃ table other, (ruleFolder "\"\\ud83d\\ude00\"").ruleTable .usual ⟨.single, ["c.yaml"]⟩ = .ok table ∧
      (ruleFolder "\"\\U0001f600\"").ruleTable .usual ⟨.single, ["c.yaml"]⟩ = .ok other ∧
      (audit table Trace.empty launchLayers (.single emptyLaunch) none).outcome = .ok (namedFindings halves) ∧
      (audit other Trace.empty launchLayers (.single emptyLaunch) none).outcome = .ok (namedFindings whole) ∧
      jsonText ⟨namedFindings halves⟩ = jsonText ⟨namedFindings whole⟩ ∧ namedFindings halves ≠ namedFindings whole ∧
      ¬ ∃ v, Json.read Room.usual.json (jsonText ⟨namedFindings halves⟩).toChars = .ok v ∧
        (toJson ⟨namedFindings halves⟩).Agrees v := by
  obtain ⟨⟨rows, source⟩, htable, rfl⟩ := Except.exists_of_toOption_map rows_halves
  obtain ⟨⟨rows, source'⟩, hother, rfl⟩ := Except.exists_of_toOption_map rows_whole
  refine ⟨_, _, htable, hother, by rfl, by rfl, jsonText_halves, by simp [namedFindings, halves, whole], ?_⟩
  rintro ⟨v, hread, hagrees⟩
  have hlegible := hagrees.legible (Json.legible_of_read hread)
  have hfinding := (legible_toJson_iff.mp hlegible).2 _ List.mem_cons_self
  have hname : Json.Joined halves := (Finding.legible_header hfinding).2.2.joined
  exact hname.rel ⟨by decide, by decide⟩

end TransitionAudit
