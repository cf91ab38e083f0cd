import TransitionAudit.Proofs.Audit.Report
import TransitionAudit.Proofs.Command.Status
import TransitionAudit.Proofs.File.Frame
import TransitionAudit.Proofs.Trace.Folder

/-!
# The reports of an audit

An audit whose analysis fails leaves the tree as it is. One with a report changes the two files of the report, and
makes the directories that are missing on the way to them; what it prints and the status it ends with are those of
the same report.
-/

namespace TransitionAudit.Command

/-! ## Reports in files -/

/-- Whether a tree has become another by the two files of a report: they hold its texts, and nothing else has
changed but for directories that were missing on the way to them. -/
structure Published (t : Tree) (report : Report) (dir : Path) (title : Text) (t' : Tree) : Prop where
  workingDir : t'.workingDir = t.workingDir
  json : ∃ octets, Text.Utf8.encode report.jsonText = .ok octets ∧ t'.read (dir.child jsonReport) = .ok octets
  markdown : ∃ octets, Text.Utf8.encode (report.markdown title) = .ok octets ∧
    t'.read (dir.child markdownReport) = .ok octets
  rest : ∀ names,
    sameNames ((dir.child jsonReport).absoluteNames t.workingDir) names = false →
    sameNames ((dir.child markdownReport).absoluteNames t.workingDir) names = false →
    t'.node? names = t.node? names ∨
      t.node? names = none ∧ t'.node? names = some .directory ∧ dir.Passes t.workingDir names

theorem published_of_writeReports {t t' : Tree} {report : Report} {dir : Path} {title : Text}
    (h : writeReports t report dir title = (t', none)) : Published t report dir title t' := by
  unfold writeReports at h
  split at h
  · cases h
  · rename_i t₁ hmake
    split at h
    · cases h
    · rename_i t₂ hjson
      obtain ⟨json, hjsonText, hjson⟩ := Tree.writeText_eq_none_iff.mp hjson
      obtain ⟨markdown, hmarkdownText, hmarkdown⟩ := Tree.writeText_eq_none_iff.mp h
      have hadds := Tree.addsDirectories_makeDirectories hmake
      have hgrows := Tree.grows_write hjson
      -- the two files have different names in one directory
      have hdistinct : ¬ sameNames ((dir.child markdownReport).absoluteNames t₂.workingDir)
          ((dir.child jsonReport).absoluteNames t₂.workingDir) = true := by
        rw [Path.absoluteNames_child (by decide), Path.absoluteNames_child (by decide), sameNames_concat_iff]
        decide
      refine ⟨?_, ⟨json, hjsonText, Tree.read_of_write hmarkdown hdistinct (Tree.read_write hjson)⟩,
        ⟨markdown, hmarkdownText, Tree.read_write hmarkdown⟩, fun names hnotJson hnotMarkdown => ?_⟩
      · exact ((Tree.grows_write hmarkdown).workingDir.trans hgrows.workingDir).trans hadds.workingDir
      · rw [← hadds.workingDir] at hnotJson
        rw [← hadds.workingDir, ← hgrows.workingDir] at hnotMarkdown
        rw [Tree.node?_write hmarkdown, if_neg (by simp [hnotMarkdown]), Tree.node?_write hjson,
          if_neg (by simp [hnotJson])]
        exact hadds.kept names

/-! ## Printing -/

theorem printed_eq_none_iff {lines : List Text} {text : Text} :
    printed lines = (text, none) ↔ (∀ line ∈ lines, Printable line) ∧ text = lines.flatMap lineOf := by
  induction lines generalizing text with
  | nil => simp [printed, eq_comm]
  | cons line rest ih =>
      rw [printed, List.forall_mem_cons, ← surrogates?_lineOf]
      cases hline : Text.Utf8.surrogates? 0 (lineOf line) with
      | some fault => simp
      | none =>
          simp only [List.flatMap_cons, true_and, Prod.mk.injEq]
          constructor
          · rintro ⟨rfl, hrest⟩
            obtain ⟨hlines, htext⟩ := ih.mp (Prod.ext rfl hrest)
            exact ⟨hlines, congrArg (lineOf line ++ ·) htext⟩
          · rintro ⟨hlines, rfl⟩
            rw [ih.mpr ⟨hlines, rfl⟩]
            exact ⟨rfl, rfl⟩

namespace Outcome

variable {o : Outcome} {lines : List Text}

@[simp] theorem tree_print : (o.print lines).tree = o.tree := by
  unfold print
  split <;> rfl

theorem print_of_printable (h : ∀ line ∈ lines, Printable line) :
    o.print lines = { o with output := o.output ++ lines.flatMap lineOf } := by
  rw [print, printed_eq_none_iff.mpr ⟨h, rfl⟩]

theorem failure_print (ho : o.failure = none) :
    (o.print lines).failure = none ↔ ∀ line ∈ lines, Printable line := by
  constructor
  · intro h
    unfold print at h
    split at h
    · rename_i hprinted
      exact (printed_eq_none_iff.mp hprinted).1
    · cases h
  · intro h
    rw [print_of_printable h]
    exact ho

theorem status_print (ho : o.failure = none) (h : (o.print lines).failure ≠ none) :
    (o.print lines).status = failedStatus := by
  unfold print at h ⊢
  split at h
  · exact absurd ho h
  · rfl

theorem lineOf_isPrefix_print {line : Text} (ho : o.output = []) (h : Printable line) :
    lineOf line <+: (o.print (line :: lines)).output := by
  simp only [print, printed, surrogates?_lineOf.mpr h]
  cases (printed lines).2 <;> simp [ho]

end Outcome

/-! ## Audits with a report -/

/-- The tree with the files that an audit writes about a report, and the fault of writing them. -/
def AuditRequest.written (r : AuditRequest) (t : Tree) (report : Report) : Tree × Option FileFault :=
  match r.outputDir with
  | none => (t, none)
  | some dir =>
    writeReports t report (dir.resolve t.workingDir) (fileTitle (r.folder.resolve t.workingDir))

/-- The lines that an audit prints about a report: its text, and where the file is that holds it. -/
def AuditRequest.linesOn (r : AuditRequest) (t : Tree) (report : Report) : List Text :=
  match r.outputDir with
  | none => [r.reportOn t report]
  | some dir =>
    [r.reportOn t report, "Report written: " ++ ((dir.resolve t.workingDir).child markdownReport).text]

section
variable {room : Room} {t : Tree} {time errors : Text} {r : AuditRequest} {report : Report}

theorem finish_eq :
    finish t errors r report = match r.written t report with
      | (t', some fault) =>
        { tree := t', status := failedStatus, errors := errors, failure := some (.writing fault) }
      | (t', none) =>
        { tree := t', status := reportStatus report, errors := errors : Outcome }.print (r.linesOn t report) := by
  unfold finish AuditRequest.written AuditRequest.linesOn
  cases r.outputDir <;> rfl

theorem runAudit_of_level {level : Nat} (hlevel : levelOf r.logLevel = .ok level) :
    ∃ errors, runAudit room t time r = match analysis room t r with
      | .error fault => fail t errors fault
      | .ok report => finish t errors r report := by
  unfold runAudit analysis
  simp only [hlevel]
  cases loadInputs room t r with
  | error fault => exact ⟨[], rfl⟩
  | ok inputs =>
      obtain ⟨table, recordings⟩ := inputs
      simp only [bind, Except.bind]
      refine ⟨logText r.jsonLogs level time
        (audit table recordings.windows recordings.layers recordings.log r.workers).log, ?_⟩
      cases (audit table recordings.windows recordings.layers recordings.log r.workers).outcome <;> rfl

theorem run_of_analysis (time : Text) {args : List Text} {level : Nat}
    (hargs : Request.ofArguments args = .ok (.audit r)) (hlevel : levelOf r.logLevel = .ok level)
    (hanalysis : analysis room t r = .ok report) :
    ∃ errors, run room t time args = finish t errors r report := by
  obtain ⟨errors, haudit⟩ := @runAudit_of_level room t time r level hlevel
  rw [hanalysis] at haudit
  refine ⟨errors, ?_⟩
  simp only [run, hargs, Request.run, haudit]

theorem printable_of_published {dir : Path} {t' : Tree}
    (h : Published t report dir (titleOf (r.folder.resolve t.workingDir)) t') :
    Printable (r.reportOn t report) := by
  rw [AuditRequest.reportOn, reportText]
  split
  · exact printable_jsonText report
  · -- this text was written in a file, so it has octets
    obtain ⟨octets, hencode, -⟩ := h.markdown
    exact (Text.hasOctets_of_encode hencode).unstyled

theorem tree_fail {fault : AuditFault} : (fail t errors fault).tree = t := by
  unfold fail
  split <;> rfl

theorem output_fail {fault : AuditFault} : (fail t errors fault).output = [] := by
  unfold fail
  split <;> rfl

theorem reportStatus_eq_zero_iff_verdict :
    reportStatus report = 0 ↔ Finding.verdict report.summary.allPassed = "PASS" := by
  have hpass : ∀ passed : Bool, Finding.verdict passed = "PASS" ↔ passed = true := by decide
  rw [reportStatus_eq_zero_iff, hpass, Summary.allPassed, Report.summary, Report.failures, beq_iff_eq,
    List.length_eq_zero_iff, List.filter_eq_nil_iff]
  simp

theorem tree_finish : (finish t errors r report).tree = (r.written t report).1 := by
  rw [finish_eq]
  split
  · rename_i hwritten
    rw [hwritten]
  · rename_i hwritten
    rw [hwritten, Outcome.tree_print]

theorem failure_finish :
    (finish t errors r report).failure = none ↔
      (r.written t report).2 = none ∧ ∀ line ∈ r.linesOn t report, Printable line := by
  rw [finish_eq]
  split
  · rename_i hwritten
    simp [hwritten]
  · rename_i hwritten
    rw [Outcome.failure_print rfl, hwritten]
    exact (and_iff_right rfl).symm

theorem finish_of_failure (h : (finish t errors r report).failure = none) :
    (finish t errors r report).output = (r.linesOn t report).flatMap lineOf ∧
      (finish t errors r report).status = reportStatus report := by
  obtain ⟨hwritten, hlines⟩ := failure_finish.mp h
  rw [finish_eq]
  split
  · rename_i hfault
    rw [hfault] at hwritten
    cases hwritten
  · rw [Outcome.print_of_printable hlines]
    exact ⟨rfl, rfl⟩

theorem status_of_failure (h : (finish t errors r report).failure ≠ none) :
    (finish t errors r report).status = failedStatus := by
  rw [finish_eq] at h ⊢
  split at h
  · rename_i hwritten
    rfl
  · rename_i hwritten
    exact Outcome.status_print rfl h

theorem status_finish :
    (finish t errors r report).status = 0 ↔
      (finish t errors r report).failure = none ∧ Finding.verdict report.summary.allPassed = "PASS" := by
  by_cases hfailure : (finish t errors r report).failure = none
  · rw [(finish_of_failure hfailure).2, reportStatus_eq_zero_iff_verdict]
    exact (and_iff_right hfailure).symm
  · rw [status_of_failure hfailure]
    exact iff_of_false (by decide) fun h => hfailure h.1

theorem published_finish {dir : Path} (hname : (r.folder.resolve t.workingDir).name ≠ [])
    (hdir : r.outputDir = some dir) (hwritten : (r.written t report).2 = none) :
    Published t report (dir.resolve t.workingDir) (titleOf (r.folder.resolve t.workingDir))
        (finish t errors r report).tree ∧
      lineOf (r.reportOn t report) <+: (finish t errors r report).output := by
  have htitle : fileTitle (r.folder.resolve t.workingDir) = titleOf (r.folder.resolve t.workingDir) := by
    rw [fileTitle, if_neg (by simpa using hname), titleOf]
  have hpublished : Published t report (dir.resolve t.workingDir) (titleOf (r.folder.resolve t.workingDir))
      (r.written t report).1 := by
    refine published_of_writeReports ?_
    rw [← hwritten, AuditRequest.written, hdir, ← htitle]
  refine ⟨tree_finish ▸ hpublished, ?_⟩
  have hlines : ∃ rest, r.linesOn t report = r.reportOn t report :: rest := by
    rw [AuditRequest.linesOn, hdir]
    exact ⟨_, rfl⟩
  obtain ⟨rest, hlines⟩ := hlines
  rw [finish_eq]
  split
  · rename_i hfault
    rw [hfault] at hwritten
    cases hwritten
  · rw [hlines]
    exact Outcome.lineOf_isPrefix_print rfl (printable_of_published hpublished)

end

/-- A command line that asks for an audit leaves the tree alone and prints nothing if the analysis fails. If it
comes to a report, the tree stays as it is without an output directory; with one, and with its files written, they
hold the texts of the report that is printed, and nothing else has changed but for new directories on the way.
The status is 0 exactly if nothing failed in writing and printing and the summary says that all has passed. -/
theorem run_reports {room : Room} {t : Tree} {time : Text} {args : List Text} {r : AuditRequest} {level : Nat}
    (hargs : Request.ofArguments args = .ok (.audit r)) (hlevel : levelOf r.logLevel = .ok level)
    (hname : (r.folder.resolve t.workingDir).name ≠ []) :
    (∀ fault, analysis room t r = .error fault →
        (run room t time args).tree = t ∧ (run room t time args).output = []) ∧
      ∀ report, analysis room t r = .ok report →
        (r.outputDir = none → (run room t time args).tree = t) ∧
        (∀ dir, r.outputDir = some dir → (r.written t report).2 = none →
          Published t report (dir.resolve t.workingDir) (titleOf (r.folder.resolve t.workingDir))
              (run room t time args).tree ∧
            lineOf (r.reportOn t report) <+: (run room t time args).output) ∧
        ((run room t time args).failure = none ↔
          (r.written t report).2 = none ∧ ∀ line ∈ r.linesOn t report, Printable line) ∧
        ((run room t time args).failure = none →
          (run room t time args).output = (r.linesOn t report).flatMap lineOf) ∧
        ((run room t time args).status = 0 ↔
          (run room t time args).failure = none ∧ Finding.verdict report.summary.allPassed = "PASS") := by
  refine ⟨fun fault hanalysis => ?_, fun report hanalysis => ?_⟩
  · obtain ⟨errors, haudit⟩ := @runAudit_of_level room t time r level hlevel
    simp only [run, hargs, Request.run, haudit, hanalysis]
    exact ⟨tree_fail, output_fail⟩
  · obtain ⟨errors, hrun⟩ := run_of_analysis time hargs hlevel hanalysis
    rw [hrun]
    refine ⟨fun hdir => ?_, fun dir hdir hwritten => published_finish hname hdir hwritten, failure_finish,
      fun hfailure => (finish_of_failure hfailure).1, status_finish⟩
    rw [tree_finish, AuditRequest.written, hdir]

theorem run_reports_emptyFolder :
    Request.ofArguments ["analyze", "t", "--output-dir", "out"] =
        .ok (.audit { folder := ⟨.relative, ["t"]⟩, outputDir := some ⟨.relative, ["out"]⟩ }) ∧
      Published (folderWith []) ⟨[]⟩ ⟨.single, ["out"]⟩ "t"
        (run .usual (folderWith []) "" ["analyze", "t", "--output-dir", "out"]).tree ∧
      (run .usual (folderWith []) "" ["analyze", "t", "--output-dir", "out"]).status = 0 := by
  have hargs : Request.ofArguments ["analyze", "t", "--output-dir", "out"] =
      .ok (.audit { folder := ⟨.relative, ["t"]⟩, outputDir := some ⟨.relative, ["out"]⟩ }) := by rfl
  have hanalysis : analysis .usual (folderWith [])
      { folder := ⟨.relative, ["t"]⟩, outputDir := some ⟨.relative, ["out"]⟩ } = .ok ⟨[]⟩ := by cbv
  have hwritten : (AuditRequest.written { folder := ⟨.relative, ["t"]⟩, outputDir := some ⟨.relative, ["out"]⟩ }
      (folderWith []) ⟨[]⟩).2 = none := by cbv
  have hline : Printable ("Report written: " ++ (Path.child ⟨.single, ["out"]⟩ markdownReport).text) := by
    refine Text.HasOctets.unstyled ?_
    unfold Text.HasOctets
    decide
  obtain ⟨-, hreport⟩ := @run_reports .usual (folderWith []) "" _ _ _ hargs rfl (by decide)
  obtain ⟨-, hpublished, hfailure, -, hstatus⟩ := hreport ⟨[]⟩ hanalysis
  obtain ⟨hfiles, -⟩ := hpublished _ rfl hwritten
  refine ⟨hargs, hfiles, hstatus.mpr ⟨hfailure.mpr ⟨hwritten, ?_⟩, rfl⟩⟩
  simp only [AuditRequest.linesOn, List.forall_mem_cons]
  exact ⟨printable_of_published hfiles, hline, by simp⟩

/-! ## Reports that pass and cannot be printed -/

/-- A folder with one transition and one state of the layers, beside a file with one rule. -/
def auditFolder (scalar : String) : Tree where
  nodes :=
    [(["c.yaml"], .file (namedRule scalar)), (["t"], .directory), (["t", Recordings.windowsFile], .file []),
     (["t", Recordings.layersFile],
      .file ("\x7b\"timestamp\":5,\"layers\":[]\x7d".toList.flatMap Text.Utf8.encodeChar)),
     (["t", Recordings.transitionsFile],
      .file ("\x7b\"id\":1,\"type\":\"OPEN\",\"start\":1,\"end\":9\x7d".toList.flatMap Text.Utf8.encodeChar))]
  workingDir := []

/-- A folder whose rule is called by half of a character. -/
def halfNamed : Tree := auditFolder "\"\\ud83d\""

/-- A directory whose name is no text: its octet 0xff stands in it as a surrogate. -/
def unnamedDir : Path := ⟨.relative, [(CodePoint.ofNumber? 0xdcff).toList]⟩

set_option maxRecDepth 10000 in
theorem verdict_halfNamed :
    (analysis .usual halfNamed
      { folder := ⟨.relative, ["t"]⟩, config := some ⟨.relative, ["c.yaml"]⟩ }).toOption.map
      (fun report => Finding.verdict report.summary.allPassed) = some "PASS" := by
  decide +kernel

set_option maxRecDepth 10000 in
theorem ends_halfNamed :
    (run .usual halfNamed "" ["analyze", "t", "--config", "c.yaml"]).status = failedStatus ∧
      (run .usual halfNamed "" ["analyze", "t", "--config", "c.yaml"]).output = [] := by
  decide +kernel

/-- A report may pass and be written, but not be printed in full: for the name of a rule, of which nothing at all is
printed then, or for that of the directory it is written in. Then the status is that of findings that failed. -/
theorem run_reports_halfNamed :
    (∃ report,
      analysis .usual halfNamed { folder := ⟨.relative, ["t"]⟩, config := some ⟨.relative, ["c.yaml"]⟩ } =
        .ok report ∧
      Finding.verdict report.summary.allPassed = "PASS" ∧
      (run .usual halfNamed "" ["analyze", "t", "--config", "c.yaml"]).status = failedStatus ∧
      (run .usual halfNamed "" ["analyze", "t", "--config", "c.yaml"]).output = []) ∧
    ∃ report,
      analysis .usual (folderWith []) { folder := ⟨.relative, ["t"]⟩, outputDir := some unnamedDir } = .ok report ∧
      (AuditRequest.written { folder := ⟨.relative, ["t"]⟩, outputDir := some unnamedDir }
        (folderWith []) report).2 = none ∧
      Finding.verdict report.summary.allPassed = "PASS" ∧
      (run .usual (folderWith []) "" ["analyze", "t", "--output-dir", unnamedDir.text]).status = failedStatus := by
  obtain ⟨report, hreport, hpass⟩ := Except.exists_of_toOption_map verdict_halfNamed
  have hanalysis : analysis .usual (folderWith [])
      { folder := ⟨.relative, ["t"]⟩, outputDir := some unnamedDir } = .ok ⟨[]⟩ := by cbv
  have hwritten : (AuditRequest.written { folder := ⟨.relative, ["t"]⟩, outputDir := some unnamedDir }
      (folderWith []) ⟨[]⟩).2 = none := by cbv
  refine ⟨⟨report, hreport, hpass, ends_halfNamed⟩, ⟨[]⟩, hanalysis, hwritten, rfl, ?_⟩
  have hargs : Request.ofArguments ["analyze", "t", "--output-dir", unnamedDir.text] =
      .ok (.audit { folder := ⟨.relative, ["t"]⟩, outputDir := some unnamedDir }) := by rfl
  obtain ⟨errors, hrun⟩ := run_of_analysis "" hargs (by rfl) hanalysis
  rw [hrun]
  refine status_of_failure fun hfailure => ?_
  obtain ⟨-, hlines⟩ := failure_finish.mp hfailure
  have hline : Printable ("Report written: " ++ (Path.child ⟨.single, unnamedDir.names⟩ markdownReport).text) :=
    hlines _ (List.mem_cons_of_mem _ List.mem_cons_self)
  rw [Printable, Text.unstyled_eq_self (by decide)] at hline
  exact absurd (hline (.surrogate 0x4ff) (by decide)) (by decide)

end TransitionAudit.Command
