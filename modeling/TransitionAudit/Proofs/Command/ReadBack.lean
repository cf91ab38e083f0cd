import TransitionAudit.Proofs.Audit.Report
import TransitionAudit.Proofs.Command.Status
import TransitionAudit.Proofs.Rule.WellFormed
import TransitionAudit.Proofs.Trace.Folder

/-!
# Reports of commands read back

What comes from recordings is always read back from the report that a command makes of them. So whether a report
comes back depends on the names of its rules alone, and on whether its findings can be counted at all.
-/

namespace TransitionAudit

/-! ## Inputs -/

/-- What is read from the files of a folder is legible. -/
theorem Recordings.legible_of_ofFolder {room : Room} {t : Tree} {folder : Path} {r : Recordings}
    (h : ofFolder room t folder = .ok r) :
    (∀ x ∈ r.windows.entries, x.Legible) ∧ (∀ x ∈ r.layers.entries, x.Legible) ∧
      ∀ x ∈ r.log.entries, x.Legible := by
  obtain ⟨-, hwindows, hlayers, hlog⟩ := ofFolder_eq_ok_iff.mp h
  have hread : ∀ {β : Type} {read : Json → Except RowFault β} {p : Path} {rows : List β},
      Recording.readFile room read t p = .ok rows → ∀ x ∈ rows, ∃ v : Json, v.Legible ∧ read v = .ok x := by
    intro β read p rows hrows
    obtain ⟨octets, -, hoctets⟩ := Recording.readFile_eq_ok_iff.mp hrows
    exact Recording.exists_of_mem_readOctets hoctets
  refine ⟨fun x hx => ?_, fun x hx => ?_, fun x hx => ?_⟩
  · obtain ⟨v, hv, hrow⟩ := hread (Recording.windows_eq_ok_iff.mp hwindows) x hx
    exact ((Row.toWindowState_eq_ok_iff.mp hrow).recordable hv).legible
  · obtain ⟨v, hv, hrow⟩ := hread (Recording.layers_eq_ok_iff.mp hlayers) x hx
    exact ((Row.toLayerState_eq_ok_iff.mp hrow).recordable hv).legible
  · obtain ⟨v, hv, hrow⟩ := hread (Recording.transitions_eq_ok_iff.mp hlog) x hx
    exact ((Row.toTransition_eq_ok_iff.mp hrow).recordable hv).legible

/-- A well-formed rule is legible exactly if what it is called is: its component has a name that documents can
give. -/
theorem Rule.WellFormed.legible_iff {r : Rule} (h : r.WellFormed) : r.Legible ↔ Json.Joined r.id := by
  refine ⟨joined_id, fun hid => ⟨fun n hn => ?_, fun c hc => Component.legible_of_mem_known (h.component c hc).1⟩⟩
  rw [← id_of_name hn (h.name n hn).1]
  exact hid

theorem RuleTable.wellFormed_of_mem_plan {table : RuleTable} {log : TransitionLog} {run : Transition × Rule}
    (h : table.WellFormed) (hrun : run ∈ table.plan log) : run.2.WellFormed := by
  obtain ⟨t, -, hrun⟩ := List.mem_flatMap.mp hrun
  obtain ⟨r, hr, rfl⟩ := List.mem_map.mp hrun
  exact (wellFormedRules_rulesFor h t.type).each r hr

namespace Command

variable {room : Room} {t : Tree} {r : AuditRequest} {report : Report}

theorem wellFormed_of_tableFor {config : Option Path} {table : RuleTable}
    (h : tableFor room t config = .ok table) : table.WellFormed := by
  cases config with
  | none =>
      cases h
      exact RuleTable.wellFormed_builtIn
  | some p => exact RuleTable.wellFormed_of_library h

theorem analysis_eq_ok_iff :
    analysis room t r = .ok report ↔ ∃ table recordings, tableFor room t r.config = .ok table ∧
      Recordings.ofFolder room t (r.folder.resolve t.workingDir) = .ok recordings ∧
      (audit table recordings.windows recordings.layers recordings.log r.workers).outcome = .ok report.findings := by
  simp only [analysis, loadInputs, Except.bind_eq_ok_iff, Except.mapError_eq_ok_iff, Except.pure_eq_ok_iff]
  constructor
  · rintro ⟨_, ⟨table, htable, recordings, hfolder, rfl⟩, findings, haudit, rfl⟩
    exact ⟨table, recordings, htable, hfolder, haudit⟩
  · rintro ⟨table, recordings, htable, hfolder, haudit⟩
    exact ⟨_, ⟨table, htable, recordings, hfolder, rfl⟩, report.findings, haudit, rfl⟩

/-! ## Reports -/

/-- The report of a command is legible exactly if its rules are called by legible names, and its findings can be
counted. -/
theorem legible_report_iff (h : analysis room t r = .ok report) :
    report.toJson.Legible ↔
      (∀ f ∈ report.findings, Json.Joined f.ruleId) ∧ Numeral.isWritable report.findings.length = true := by
  obtain ⟨table, recordings, htable, hfolder, haudit⟩ := analysis_eq_ok_iff.mp h
  obtain ⟨hwindows, hlayers, hlog⟩ := Recordings.legible_of_ofFolder hfolder
  have hfindings := audit_forall₂ haudit
  rw [Report.legible_toJson_iff]
  constructor
  · rintro ⟨hnumber, hlegible⟩
    exact ⟨fun f hf => (Finding.legible_header (hlegible f hf)).2.2.joined, hnumber⟩
  · rintro ⟨hnames, hnumber⟩
    have hrules : ∀ run ∈ table.plan recordings.log, run.2.Legible := by
      intro run hrun
      obtain ⟨f, hf, -, hid, -⟩ := hfindings.exists_of_mem_left hrun
      have hwellFormed := RuleTable.wellFormed_of_mem_plan (wellFormed_of_tableFor htable) hrun
      exact hwellFormed.legible_iff.mpr (hid ▸ hnames f hf)
    refine ⟨hnumber, legible_of_audit haudit ⟨hwindows, hlayers, fun x hx => hlog x ?_, hrules, ?_⟩⟩
    · exact List.mem_of_mem_filter hx
    · rw [hfindings.length_eq]
      exact hnumber

/-- A command makes a report that is read back, with all its findings, exactly if its rules are called by names
that hold no character as two surrogates, and its findings can be counted. -/
theorem readBack_iff (h : analysis room t r = .ok report) :
    (∃ v, Json.read room.json report.jsonText.toChars = .ok v ∧ report.toJson.Agrees v ∧
        Report.findingsOf? v = some report.findings) ↔
      (∀ f ∈ report.findings, Json.Joined f.ruleId) ∧ Numeral.isWritable report.findings.length = true := by
  obtain ⟨table, recordings, htable, hfolder, haudit⟩ := analysis_eq_ok_iff.mp h
  rw [← legible_report_iff h]
  exact (Report.legible_iff_read room haudit).symm

end Command

end TransitionAudit
