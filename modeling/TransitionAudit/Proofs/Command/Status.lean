import TransitionAudit.Command.Run
import TransitionAudit.Proofs.Audit.Markdown
import TransitionAudit.Proofs.Rule.Fault
import TransitionAudit.Proofs.Trace.Collection
import TransitionAudit.Proofs.Trace.Fault
import Mathlib

/-!
# The status of an audit

An audit that writes no files and logs no events ends in one of four ways: its input is refused, its report is
printed, its input has a fault that is not reported, or its report cannot be printed. The status tells the first
two apart from each other, and the verdicts of the second; the other two end with the status of a report that
failed.
-/

namespace TransitionAudit.Command

/-- What an audit of a folder comes to: a report, or the first fault. -/
def analysis (room : Room) (t : Tree) (r : AuditRequest) : Except AuditFault Report := do
  let (table, recordings) ← loadInputs room t r
  let findings ←
    (audit table recordings.windows recordings.layers recordings.log r.workers).outcome.mapError .run
  return ⟨findings⟩

/-- Whether the level of an audit is known and the events of its run are below it. -/
def AuditRequest.Quiet (r : AuditRequest) : Prop := ∃ level, levelOf r.logLevel = .ok level ∧ eventLevel < level

/-- Whether a text has octets once it is free of styles. -/
def Printable (t : Text) : Prop := (Text.unstyled t).HasOctets

/-- The text of the report of an audit. -/
def AuditRequest.reportOn (r : AuditRequest) (t : Tree) (report : Report) : Text :=
  reportText r (r.folder.resolve t.workingDir) report

/-! ## Printing -/

theorem surrogates?_lineOf {t : Text} : Text.Utf8.surrogates? 0 (lineOf t) = none ↔ Printable t := by
  rw [Text.Utf8.surrogates?_eq_none_iff, lineOf, Text.hasOctets_append]
  exact and_iff_left (Text.hasOctets_ofString _)

theorem printed_of_printable {t : Text} (h : Printable t) : printed [t] = (lineOf t, none) := by
  simp only [printed, surrogates?_lineOf.mpr h, List.append_nil]

theorem printed_of_not_printable {t : Text} (h : ¬ Printable t) :
    ∃ fault, printed [t] = ([], some fault) := by
  cases hfault : Text.Utf8.surrogates? 0 (lineOf t) with
  | none => exact absurd (surrogates?_lineOf.mp hfault) h
  | some fault => exact ⟨fault, by simp only [printed, hfault]⟩

/-- A report in JSON is always printed. -/
theorem printable_jsonText (report : Report) : Printable report.jsonText :=
  (Text.hasOctets_ofChars _).unstyled

/-! ## Quiet audits -/

section
variable {room : Room} {t : Tree} {time : Text} {r : AuditRequest}

theorem runAudit_of_quiet (hquiet : r.Quiet) :
    runAudit room t time r = match analysis room t r with
      | .error fault => fail t [] fault
      | .ok report => finish t [] r report := by
  obtain ⟨level, hlevel, hlt⟩ := hquiet
  have hlog : ∀ asJson log, logText asJson level time log = [] := by
    intro asJson log
    rw [logText, if_neg (by omega)]
  unfold runAudit analysis
  simp only [hlevel, hlog]
  cases loadInputs room t r with
  | error fault => rfl
  | ok inputs =>
      obtain ⟨table, recordings⟩ := inputs
      simp only [bind, Except.bind]
      cases (audit table recordings.windows recordings.layers recordings.log r.workers).outcome <;> rfl

theorem finish_of_printable {report : Report} (hdir : r.outputDir = none)
    (h : Printable (r.reportOn t report)) :
    finish t [] r report =
      { tree := t, status := reportStatus report
        output := lineOf (r.reportOn t report) } := by
  simp only [AuditRequest.reportOn] at h ⊢
  simp only [finish, hdir, Option.map_none, Outcome.print, printed_of_printable h]
  rfl

theorem finish_of_not_printable {report : Report} (hdir : r.outputDir = none)
    (h : ¬ Printable (r.reportOn t report)) :
    ∃ fault, finish t [] r report = { tree := t, status := failedStatus, failure := some (.printing fault) } := by
  obtain ⟨fault, hfault⟩ := printed_of_not_printable h
  refine ⟨fault, ?_⟩
  simp only [AuditRequest.reportOn] at hfault
  simp only [finish, hdir, Option.map_none, Outcome.print, hfault]
  rfl

end

/-! ## Faults that are not reported -/

/-- What a fault of recordings that is not reported comes from: a path that cannot be looked up, a row with too
many levels, or a transition with a collection in place of a mode. -/
inductive RecordingsEscape (room : Room) (t : Tree) (folder : Path) : RecordingFault → Prop
  | lookup {name : Text} {fault : FileFault} (known : name ∈ Recordings.fileNames)
      (lookup : t.isFile (folder.child name) = .error fault) : RecordingsEscape room t folder (.file fault)
  | tooDeep {name : Text} {octets : List UInt8} {line : List Char} {isList : Bool} (path : Text) (number : Nat)
      (known : name ∈ Recordings.fileNames) (opens : t.read (folder.child name) = .ok octets)
      (holds : line ∈ Recording.linesOf octets)
      (deep : Json.read room.json (Text.trim line) = .error (.tooDeep isList)) :
      RecordingsEscape room t folder (.badLine path number (.json (.tooDeep isList)))
  | collection {octets : List UInt8} {line : List Char} {v collection : Json} (path : Text) (number : Nat)
      (opens : t.read (folder.child Recordings.transitionsFile) = .ok octets)
      (holds : line ∈ Recording.linesOf octets) (reads : Json.read room.json (Text.trim line) = .ok v)
      (reaches : Row.ReachesCollection v collection) :
      RecordingsEscape room t folder (.badLine path number (.row (.collectionMode collection)))

section
variable {room : Room} {t : Tree} {folder : Path} {fault : RecordingFault}

/-- Of a recording only a row with too many levels, or what its rows may have in place of a mode, escapes. -/
theorem recordingsEscape_of_fails {β : Type} {read : Json → Except RowFault β} {name : Text}
    (hname : name ∈ Recordings.fileNames)
    (hcollection : ∀ v w, read v = .error (.collectionMode w) →
      name = Recordings.transitionsFile ∧ Row.ReachesCollection v w)
    (h : Recording.Fails room read t (folder.child name) fault) (hfault : isRecordingReported fault = false) :
    RecordingsEscape room t folder fault := by
  cases h with
  | notUtf8 f => cases hfault
  | disorder d => cases hfault
  | duplicate d => cases hfault
  | @badLine octets number fault hopens hline =>
      obtain ⟨before, line, after, hlines, -, -, -, hfails⟩ := hline
      have hmem : line ∈ Recording.linesOf octets := by simp [hlines]
      cases fault with
      | json f =>
          cases f with
          | tooDeep isList => exact .tooDeep _ number hname hopens hmem hfails
          | _ => cases hfault
      | row f =>
          obtain ⟨v, hjson, hf⟩ := hfails
          cases f with
          | collectionMode w =>
              obtain ⟨rfl, hreaches⟩ := hcollection v w hf
              exact .collection _ number hopens hmem hjson hreaches
          | _ => cases hfault

theorem recordingsEscape_of_ofFolder (h : Recordings.ofFolder room t folder = .error fault)
    (hfault : isRecordingReported fault = false) : RecordingsEscape room t folder fault := by
  rcases Recordings.ofFolder_eq_error h with ⟨name, hname, f, hf, rfl⟩ | ⟨names, rfl⟩ | hfails | hfails | hfails
  · exact .lookup hname hf
  · cases hfault
  · exact recordingsEscape_of_fails (by decide) (fun v w hw => absurd hw Row.toWindowState_ne_collectionMode)
      hfails hfault
  · exact recordingsEscape_of_fails (by decide) (fun v w hw => absurd hw Row.toLayerState_ne_collectionMode)
      hfails hfault
  · exact recordingsEscape_of_fails (by decide)
      (fun v w hw => ⟨rfl, Row.toTransition_eq_collectionMode_iff.mp hw⟩) hfails hfault

end

theorem unsaid_of_isSourceReported {fault : SourceFault} (h : isSourceReported fault = false) : fault.Unsaid := by
  cases fault with
  | notData f => exact .notData f
  | badPath f => exact .badPath f
  | unmergeable f => exact .unmergeable f
  | document f =>
      cases f with
      | unwritable => exact .document .unwritable
      | item place f =>
          cases f with
          | unsortedKeys g => exact .document (.item place (.unsortedKeys g))
          | keyNotText index key => exact .document (.item place (.keyNotText index key))
          | _ => cases h
      | _ => cases h
  | _ => cases h

/-- What a fault that is not reported comes from. -/
def Escape (room : Room) (t : Tree) (r : AuditRequest) : AuditFault → Prop
  | .rules fault => r.config ≠ none ∧ Tree.RulesEscape room t fault
  | .recordings fault => RecordingsEscape room t (r.folder.resolve t.workingDir) fault
  | .run _ => False

theorem escape_of_analysis {room : Room} {t : Tree} {r : AuditRequest} {fault : AuditFault}
    (h : analysis room t r = .error fault) (hfault : isReported fault = false) : Escape room t r fault := by
  simp only [analysis, loadInputs, Except.bind_eq_error_iff, Except.mapError_eq_error_iff, Except.pure_ne_error,
    and_false, exists_false, or_false] at h
  rcases h with (⟨f, hf, rfl⟩ | ⟨table, -, f, hf, rfl⟩) | ⟨_, -, f, -, rfl⟩
  · cases hconfig : r.config with
    | none =>
        rw [hconfig] at hf
        cases hf
    | some p =>
        rw [hconfig] at hf
        exact ⟨by simp [hconfig], Tree.ruleTable_unsaid hf (unsaid_of_isSourceReported hfault)⟩
  · exact recordingsEscape_of_ofFolder hf hfault
  · cases hfault

/-! ## The four ends -/

/-- How an audit ends that writes no files and logs no events. -/
inductive Ends (room : Room) (t : Tree) (r : AuditRequest) : Outcome → Prop
  | refused {fault : AuditFault} (input : analysis room t r = .error fault) (reported : isReported fault = true) :
      Ends room t r
        { tree := t, status := refusedStatus, errors := errorText (lineOf ("ERROR: " ++ fault.message)) }
  | printed {report : Report} (input : analysis room t r = .ok report) (printable : Printable (r.reportOn t report)) :
      Ends room t r { tree := t, status := reportStatus report, output := lineOf (r.reportOn t report) }
  | escaped {fault : AuditFault} (input : analysis room t r = .error fault) (silent : isReported fault = false)
      (cause : Escape room t r fault) :
      Ends room t r { tree := t, status := failedStatus, failure := some (.audit fault) }
  | unprinted {report : Report} (fault : Text.Utf8.SurrogateFault) (input : analysis room t r = .ok report)
      (unprintable : ¬ Printable (r.reportOn t report)) (asMarkdown : r.asJson = false)
      (cause : ¬ (titleOf (r.folder.resolve t.workingDir)).HasOctets ∨ ∃ f ∈ report.findings, ¬ f.Encodes) :
      Ends room t r { tree := t, status := failedStatus, failure := some (.printing fault) }

/-- A report that cannot be printed is one in Markdown about something whose name has no octets. -/
theorem cause_of_not_printable {t : Tree} {r : AuditRequest} {report : Report}
    (h : ¬ Printable (r.reportOn t report)) :
    r.asJson = false ∧
      (¬ (titleOf (r.folder.resolve t.workingDir)).HasOctets ∨ ∃ f ∈ report.findings, ¬ f.Encodes) := by
  cases hjson : r.asJson with
  | true =>
      simp only [AuditRequest.reportOn, reportText, hjson, if_true] at h
      exact absurd (printable_jsonText report) h
  | false =>
      simp only [AuditRequest.reportOn, reportText, hjson, Bool.false_eq_true, if_false] at h
      refine ⟨rfl, ?_⟩
      by_contra hcause
      push Not at hcause
      exact h (Report.hasOctets_markdown hcause.1 hcause.2).unstyled

theorem ends_runAudit {room : Room} {t : Tree} {time : Text} {r : AuditRequest} (hdir : r.outputDir = none)
    (hquiet : r.Quiet) : Ends room t r (runAudit room t time r) := by
  rw [runAudit_of_quiet hquiet]
  cases hanalysis : analysis room t r with
  | error fault =>
      simp only [fail]
      cases hreported : isReported fault with
      | true => exact .refused hanalysis hreported
      | false => exact .escaped hanalysis hreported (escape_of_analysis hanalysis hreported)
  | ok report =>
      by_cases hprintable : Printable (r.reportOn t report)
      · simp only [finish_of_printable hdir hprintable]
        exact .printed hanalysis hprintable
      · obtain ⟨fault, hfinish⟩ := finish_of_not_printable (t := t) hdir hprintable
        obtain ⟨hmarkdown, hcause⟩ := cause_of_not_printable hprintable
        simp only [hfinish]
        exact .unprinted fault hanalysis hprintable hmarkdown hcause

theorem reportStatus_eq_zero_iff {report : Report} :
    reportStatus report = 0 ↔ ∀ f ∈ report.findings, f.passed = true := by
  rw [reportStatus, Report.passed, ← List.all_eq_true]
  cases report.findings.all (·.passed) <;> simp [failedStatus]

theorem reportStatus_eq_failedStatus_iff {report : Report} :
    reportStatus report = failedStatus ↔ ∃ f ∈ report.findings, f.passed = false := by
  rw [reportStatus, Report.passed]
  cases hall : report.findings.all (·.passed) <;> simp_all [failedStatus]

/-! ## The status -/

/-- A tree with a folder of recordings, of which those of the windows and the layers are empty. -/
def folderWith (transitions : List UInt8) : Tree where
  nodes :=
    [(["t"], .directory), (["t", Recordings.windowsFile], .file []), (["t", Recordings.layersFile], .file []),
     (["t", Recordings.transitionsFile], .file transitions)]
  workingDir := []

/-- A command line that asks for a quiet audit without files ends in one of the four ways. The input is refused
exactly with status 2, and a printed report has status 0 or 1 as its findings passed or not; but status 1 comes
as well from faults that are not reported and from reports that cannot be printed. -/
theorem run_status {room : Room} {t : Tree} {time : Text} {args : List Text} {r : AuditRequest}
    (hargs : Request.ofArguments args = .ok (.audit r)) (hdir : r.outputDir = none) (hquiet : r.Quiet) :
    Ends room t r (run room t time args) ∧
      ((run room t time args).status = refusedStatus ↔
        ∃ fault, analysis room t r = .error fault ∧ isReported fault = true) ∧
      ((run room t time args).status = 0 ↔ ∃ report, analysis room t r = .ok report ∧
        Printable (r.reportOn t report) ∧ ∀ f ∈ report.findings, f.passed = true) ∧
      ((run room t time args).status = failedStatus ↔
        (∃ report, analysis room t r = .ok report ∧ Printable (r.reportOn t report) ∧
          ∃ f ∈ report.findings, f.passed = false) ∨
        (∃ fault, analysis room t r = .error fault ∧ isReported fault = false) ∨
        ∃ report, analysis room t r = .ok report ∧ ¬ Printable (r.reportOn t report)) := by
  have hends : Ends room t r (run room t time args) := by
    simp only [run, hargs, Request.run]
    exact ends_runAudit hdir hquiet
  revert hends
  generalize run room t time args = o
  intro hends
  refine ⟨hends, ?_⟩
  cases hends with
  | refused input reported => simp [input, reported, refusedStatus, failedStatus]
  | printed input printable =>
      rename_i report
      have hne : reportStatus report ≠ refusedStatus := by
        rw [reportStatus]
        cases report.passed <;> decide
      simp [input, printable, hne, reportStatus_eq_zero_iff, reportStatus_eq_failedStatus_iff]
  | escaped input silent cause => simp [input, silent, refusedStatus, failedStatus]
  | unprinted fault input unprintable _ _ => simp [input, unprintable, refusedStatus, failedStatus]

theorem run_status_empty :
    Request.ofArguments ["analyze", "t", "--json"] = .ok (.audit { folder := ⟨.relative, ["t"]⟩, asJson := true }) ∧
      analysis .usual (folderWith []) { folder := ⟨.relative, ["t"]⟩, asJson := true } = .ok ⟨[]⟩ ∧
      (run .usual (folderWith []) "" ["analyze", "t", "--json"]).status = 0 := by
  have hargs : Request.ofArguments ["analyze", "t", "--json"] =
      .ok (.audit { folder := ⟨.relative, ["t"]⟩, asJson := true }) := by rfl
  have hanalysis :
      analysis .usual (folderWith []) { folder := ⟨.relative, ["t"]⟩, asJson := true } = .ok ⟨[]⟩ := by cbv
  obtain ⟨-, -, hzero, -⟩ :=
    @run_status .usual (folderWith []) "" _ _ hargs rfl ⟨defaultLevel, by rfl, by decide⟩
  exact ⟨hargs, hanalysis, hzero.mpr ⟨⟨[]⟩, hanalysis, printable_jsonText _, by simp⟩⟩

/-- A transition with a list in place of a mode. -/
def listedMode : List Char :=
  "\x7b\"id\":1,\"type\":\"OPEN\",\"start\":1,\"end\":2,\"changes\":".toList ++
    "[\x7b\"window_name\":\"a/.B\",\"transit_mode\":[]\x7d]\x7d".toList

theorem readLine_listedMode :
    Recording.readLine .usual Row.toTransition listedMode = .error (.row (.collectionMode (.arr []))) := by
  have hread : Json.read Room.usual.json listedMode =
      .ok (.obj [("id", .int 1), ("type", .str "OPEN"), ("start", .int 1), ("end", .int 2),
        ("changes", .arr [.obj [("window_name", .str "a/.B"), ("transit_mode", .arr [])]])]) := by cbv
  rw [Recording.readLine, hread]
  cbv

theorem readOctets_listedMode (path : Text) :
    Recording.readOctets .usual Row.toTransition path (listedMode.flatMap Text.Utf8.encodeChar) =
      .error (.badLine path 1 (.row (.collectionMode (.arr [])))) := by
  have hdecode : Text.Utf8.decode (listedMode.flatMap Text.Utf8.encodeChar) = ⟨listedMode, none⟩ := by cbv
  have hlines : Text.lines listedMode = [listedMode] := by rfl
  have htrim : Text.trim listedMode = listedMode := by rfl
  have hblank : listedMode.isEmpty = false := by rfl
  rw [Recording.readOctets, Text.Utf8.stream_eq_none_iff.mpr hdecode]
  simp only [Recording.readText, hlines, Recording.readLines, htrim, hblank, Bool.false_eq_true, if_false,
    readLine_listedMode, Except.mapError, bind, Except.bind]

/-- The folder is found and its first two recordings are read, so its fault is that of the third. -/
theorem ofFolder_folderWith {transitions : List UInt8} {fault : RecordingFault}
    (h : Recording.readOctets .usual Row.toTransition "/t/transition_trace.jsonl" transitions = .error fault) :
    Recordings.ofFolder .usual (folderWith transitions) ⟨.single, ["t"]⟩ = .error fault := by
  have hmissing :
      Recordings.missingFrom (folderWith transitions) ⟨.single, ["t"]⟩ Recordings.fileNames = .ok [] := by rfl
  have hwindows : Recording.windows .usual (folderWith transitions)
      (Path.child ⟨.single, ["t"]⟩ Recordings.windowsFile) = .ok .empty := by rfl
  have hlayers : Recording.layers .usual (folderWith transitions)
      (Path.child ⟨.single, ["t"]⟩ Recordings.layersFile) = .ok .empty := by rfl
  have hlog : Recording.transitions .usual (folderWith transitions)
      (Path.child ⟨.single, ["t"]⟩ Recordings.transitionsFile) = .error fault := by
    have hread : (folderWith transitions).read (Path.child ⟨.single, ["t"]⟩ Recordings.transitionsFile) =
        .ok transitions := by rfl
    have hpath :
        Path.text (Path.child ⟨.single, ["t"]⟩ Recordings.transitionsFile) = "/t/transition_trace.jsonl" := by rfl
    simp only [Recording.transitions, Recording.readFile, hread, hpath, h, Except.mapError, bind, Except.bind]
  simp only [Recordings.ofFolder, hmissing, hwindows, hlayers, hlog, Except.mapError, bind, Except.bind]
  rfl

/-- A folder whose only row is that transition is refused, but without a word about it. -/
theorem run_listedMode :
    run .usual (folderWith (listedMode.flatMap Text.Utf8.encodeChar)) "" ["analyze", "t"] =
      { tree := folderWith (listedMode.flatMap Text.Utf8.encodeChar), status := failedStatus
        failure := some (.audit (.recordings
          (.badLine "/t/transition_trace.jsonl" 1 (.row (.collectionMode (.arr [])))))) } := by
  have hargs : Request.ofArguments ["analyze", "t"] = .ok (.audit { folder := ⟨.relative, ["t"]⟩ }) := by rfl
  have hfolder := ofFolder_folderWith (readOctets_listedMode "/t/transition_trace.jsonl")
  have hanalysis : analysis .usual (folderWith (listedMode.flatMap Text.Utf8.encodeChar))
      { folder := ⟨.relative, ["t"]⟩ } =
      .error (.recordings (.badLine "/t/transition_trace.jsonl" 1 (.row (.collectionMode (.arr []))))) := by
    have hresolve : Path.resolve (folderWith (listedMode.flatMap Text.Utf8.encodeChar)).workingDir
        ⟨.relative, ["t"]⟩ = ⟨.single, ["t"]⟩ := by rfl
    simp only [analysis, loadInputs, tableFor, hresolve, hfolder, Except.mapError, bind, Except.bind]
  simp only [run, hargs, Request.run]
  rw [runAudit_of_quiet ⟨defaultLevel, by rfl, by decide⟩, hanalysis]
  rfl

end TransitionAudit.Command
