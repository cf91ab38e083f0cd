import TransitionAudit.Audit.Report

/-!
# Reports in Markdown

A heading, the counts, a table of results for each transition and a list of failures. Names are put
into the text as they are.
-/

namespace TransitionAudit.Report

def defaultTitle : Text := "Transition assertions"

def summaryLines (s : Summary) : List Text :=
  let status : Text :=
    if s.allPassed then "All assertions passed" else "Assertion failures detected"
  let counts := "(" ++ Numeral.nat s.passed ++ " passed, " ++ Numeral.nat s.failed ++ " failed)"
  let errors : List Text :=
    if s.errors = 0 then [] else ["- Rule errors: **" ++ Numeral.nat s.errors ++ "**"]
  ("- Status: **" ++ status ++ "**") ::
    ("- Transitions checked: **" ++ Numeral.nat s.transitions ++ "**") ::
    ("- Assertions: **" ++ Numeral.nat s.assertions ++ "** " ++ counts) :: errors

/-- The row of a finding in the table of its transition. -/
def tableRow (f : Finding) : Text := "| `" ++ f.ruleId ++ "` | " ++ f.status ++ " |"

def tableLines (id : Int) (fs : List Finding) : List Text :=
  let title := "#### Transition #" ++ Numeral.int id ++ " (" ++ typeOf fs ++ ")"
  title :: "" :: "| Rule | Status |" :: "|---|---|" :: fs.map tableRow ++ [[]]

/-- The bullet of a failed finding. -/
def failureBullet (f : Finding) : Text :=
  let code : Text := match f.errorCode with
    | none | some [] => ""
    | some code => " [" ++ code ++ "]"
  "- Transition #" ++ Numeral.int f.transitionId ++ " `" ++ f.ruleId ++ "`" ++ code ++ ": " ++
    f.detail.getD "None"

/-- The moments of a finding's violations. -/
def momentLines (f : Finding) : List Text :=
  f.violations.filterMap fun v => v.moment.map fun m => "  - at " ++ m.text ++ ": " ++ v.message

def failureLines (fs : List Finding) : List Text :=
  let heading : List Text := ["### Failures", ""]
  if fs.isEmpty then []
  else heading ++ fs.flatMap (fun f => failureBullet f :: momentLines f) ++ [[]]

def resultLines (groups : List (Int × List Finding)) : List Text :=
  if groups.isEmpty then ["No completed transitions were checked."]
  else groups.flatMap fun (id, fs) => tableLines id fs

def markdownLines (r : Report) (title : Text) : List Text :=
  let heading : List Text := ["## flickercheck Report: " ++ title, ""]
  let results : List Text := ["", "### Results", ""]
  heading ++ summaryLines r.summary ++ results ++ resultLines r.byTransition ++
    failureLines r.failures

def markdown (r : Report) (title : Text) : Text :=
  List.intercalate "\n" (r.markdownLines title)

end TransitionAudit.Report
