import TransitionAudit.Command.Arguments
import TransitionAudit.Command.Log
import TransitionAudit.Audit.Markdown
import TransitionAudit.Rule.File
import TransitionAudit.Trace.Folder
import TransitionAudit.Text.Style

/-!
# Running commands

What a command does to a file tree, what it prints and the status it ends with: 0 for success, 1 for
findings that did not pass, 2 for input that is refused. A fault that is not the input's own ends a
command with status 1 and nothing printed.
-/

namespace TransitionAudit.Command

def programName : Text := "flickercheck"

def programVersion : Text := "0.3.0"

/-! ## Outcomes -/

/-- A fault of an audit. -/
inductive AuditFault
  | rules (fault : SourceFault)
  | recordings (fault : RecordingFault)
  | run (fault : RunFault)

namespace AuditFault

def message : AuditFault → Text
  | .rules fault => fault.message
  | .recordings fault => fault.message
  | .run fault => fault.message

end AuditFault

/-- A fault that a command does not report itself. -/
inductive Failure
  | audit (fault : AuditFault)
  | writing (fault : FileFault)
  /-- A line that has no octets. -/
  | printing (fault : Text.Utf8.SurrogateFault)
  | level (fault : LevelFault)

def Failure.message : Failure → Text
  | .audit fault => fault.message
  | .writing fault => fault.message
  | .printing fault => fault.message
  | .level fault => fault.message

/-- What a command leaves behind. -/
structure Outcome where
  tree : Tree
  status : Nat := 0
  output : Text := ""
  errors : Text := ""
  failure : Option Failure := none

/-- The status of a run with findings that did not pass. -/
def failedStatus : Nat := 1

/-- The status of a run whose input is refused. -/
def refusedStatus : Nat := 2

/-! ## Printing -/

/-- A line for a text, free of terminal styles. -/
def lineOf (t : Text) : Text := Text.unstyled t ++ "\n"

/-- Lines as they are printed, up to the first one that has no octets. -/
def printed : List Text → Text × Option Text.Utf8.SurrogateFault
  | [] => ([], none)
  | t :: rest =>
    match Text.Utf8.surrogates? 0 (lineOf t) with
    | some fault => ([], some fault)
    | none =>
      let (more, fault) := printed rest
      (lineOf t ++ more, fault)

/-- An outcome that prints lines, or fails at the first one that cannot be printed. -/
def Outcome.print (o : Outcome) (lines : List Text) : Outcome :=
  match printed lines with
  | (text, none) => { o with output := o.output ++ text }
  | (text, some fault) =>
    { o with status := failedStatus, output := o.output ++ text, failure := some (.printing fault) }

/-- A text as it is written on the error stream, where surrogates are escaped. -/
def errorText (t : Text) : Text :=
  t.flatMap fun p => if p.isSurrogate then Text.ofChars (Text.numberEscape p.number) else [p]

/-! ## Which faults are reported -/

/-- Whether a fault in an item lies in what the item says. The keys of an item may instead be such
that no list of the unknown ones can be made. -/
def isItemReported : ItemFault → Bool
  | .unsortedKeys _ | .keyNotText .. => false
  | _ => true

def isDocumentReported : DocumentFault → Bool
  | .unwritable => false
  | .item _ fault => isItemReported fault
  | _ => true

def isSourceReported : SourceFault → Bool
  | .notData _ | .badPath _ | .unmergeable _ => false
  | .document fault => isDocumentReported fault
  | _ => true

def isLineReported : LineFault → Bool
  | .json (.tooDeep _) => false
  | .row (.collectionMode _) => false
  | _ => true

def isRecordingReported : RecordingFault → Bool
  | .file (.missing _) => true
  | .file _ => false
  | .badLine _ _ fault => isLineReported fault
  | _ => true

/-- Whether a command reports a fault as one of its input. -/
def isReported : AuditFault → Bool
  | .rules fault => isSourceReported fault
  | .recordings fault => isRecordingReported fault
  | .run _ => true

/-- Ends a command with a fault: on the error stream if it is reported, after what stands there. -/
def fail (tree : Tree) (errors : Text) (fault : AuditFault) : Outcome :=
  if isReported fault then
    { tree := tree, status := refusedStatus, errors := errors ++ errorText (lineOf ("ERROR: " ++ fault.message)) }
  else
    { tree := tree, status := failedStatus, errors := errors, failure := some (.audit fault) }

/-! ## Audits -/

/-- The rule table of a file, or the built-in one. -/
def tableFor (room : Room) (t : Tree) : Option Path → Except SourceFault RuleTable
  | none => .ok .builtIn
  | some p => t.ruleTable room (p.resolve t.workingDir)

/-- Rules and recordings, in the order in which they are loaded. -/
def loadInputs (room : Room) (t : Tree) (r : AuditRequest) : Except AuditFault (RuleTable × Recordings) := do
  let table ← (tableFor room t r.config).mapError .rules
  let recordings ← (Recordings.ofFolder room t (r.folder.resolve t.workingDir)).mapError .recordings
  return (table, recordings)

def jsonReport : Text := "report.json"

def markdownReport : Text := "report.md"

/-- The title of the report on a folder. -/
def titleOf (folder : Path) : Text := folder.name

/-- The title of a report in a file, which is never empty. -/
def fileTitle (folder : Path) : Text := if folder.name.isEmpty then folder.text else folder.name

/-- Writes both reports into a directory, which is made if it is missing. What has been written before
a fault stays. -/
def writeReports (t : Tree) (r : Report) (dir : Path) (title : Text) : Tree × Option FileFault :=
  match t.makeDirectories dir with
  | .error fault => (t, some fault)
  | .ok t =>
    match t.writeText (dir.child jsonReport) r.jsonText with
    | (t, some fault) => (t, some fault)
    | (t, none) => t.writeText (dir.child markdownReport) (r.markdown title)

/-- The text of a report on a folder, as it is printed. -/
def reportText (r : AuditRequest) (folder : Path) (report : Report) : Text :=
  if r.asJson then report.jsonText else report.markdown (titleOf folder)

def reportStatus (report : Report) : Nat := if report.passed then 0 else failedStatus

/-- Writes and prints the report of a run. -/
def finish (t : Tree) (errors : Text) (r : AuditRequest) (report : Report) : Outcome :=
  let folder := r.folder.resolve t.workingDir
  let text := reportText r folder report
  match r.outputDir.map (·.resolve t.workingDir) with
  | none => { tree := t, status := reportStatus report, errors := errors : Outcome }.print [text]
  | some dir =>
    match writeReports t report dir (fileTitle folder) with
    | (t, some fault) =>
      { tree := t, status := failedStatus, errors := errors, failure := some (.writing fault) }
    | (t, none) =>
      { tree := t, status := reportStatus report, errors := errors : Outcome }.print
        [text, "Report written: " ++ (dir.child markdownReport).text]

/-- The log of a run, as it is written. -/
def logText (asJson : Bool) (level : Nat) (time : Text) (log : List Event) : Text :=
  if level ≤ eventLevel then log.flatMap fun e => errorText (logLine asJson time e ++ "\n") else []

/-- Audits a folder of recordings. -/
def runAudit (room : Room) (t : Tree) (time : Text) (r : AuditRequest) : Outcome :=
  match levelOf r.logLevel with
  | .error fault => { tree := t, status := failedStatus, failure := some (.level fault) }
  | .ok level =>
    match loadInputs room t r with
    | .error fault => fail t [] fault
    | .ok (table, recordings) =>
      let run := audit table recordings.windows recordings.layers recordings.log r.workers
      let errors := logText r.jsonLogs level time run.log
      match run.outcome with
      | .error fault => fail t errors (.run fault)
      | .ok findings => finish t errors r ⟨findings⟩

/-! ## Listings -/

/-- The rules under a heading, one on a line. -/
def rowLines (row : Text × List Rule) : List Text :=
  (row.1 ++ ":") :: if row.2.isEmpty then ["  (no rules)"] else row.2.map fun r => "  - " ++ r.id

def runRules (room : Room) (t : Tree) (config : Option Path) (asJson : Bool) : Outcome :=
  match tableFor room t config with
  | .error fault => fail t [] (.rules fault)
  | .ok table =>
    let lines := if asJson then [Json.text Json.indented table.toJson]
      else table.rows.flatMap rowLines
    { tree := t : Outcome }.print lines

def checkLine (c : Check) : Text :=
  let suffix : Text := if c.needsComponent then " (component)" else ""
  "- " ++ c.name ++ suffix ++ ": " ++ c.description

/-- The checks and components that rules can name. -/
def checkLines : List Text :=
  let components : List Text := "Components:" :: Component.known.map fun c => "- " ++ c.name
  let checks : List Text := "Checks:" :: Check.all.map checkLine
  checks ++ components

/-! ## All commands -/

def usageText : Text :=
  List.intercalate "\n"
    ["Usage: " ++ programName ++ " [--help | --version]",
     "       " ++ programName ++ " analyze FOLDER [--config FILE] [--workers N] [--output-dir FOLDER]",
     "           [--json] [--log-level LEVEL] [--json-logs]",
     "       " ++ programName ++ " rules [--config FILE] [--json]",
     "       " ++ programName ++ " checks", ""]

/-- What a request does at a time. -/
def Request.run (room : Room) (t : Tree) (time : Text) : Request → Outcome
  | .nothing => { tree := t }
  | .help => { tree := t, output := usageText }
  | .version => { tree := t : Outcome }.print [programName ++ " " ++ programVersion]
  | .audit r => runAudit room t time r
  | .rules config asJson => runRules room t config asJson
  | .checks => { tree := t : Outcome }.print checkLines

/-- What arguments do at a time. -/
def run (room : Room) (t : Tree) (time : Text) (args : List Text) : Outcome :=
  match Request.ofArguments args with
  | .ok r => r.run room t time
  | .error .usage => { tree := t, status := refusedStatus, errors := usageText }

end TransitionAudit.Command
