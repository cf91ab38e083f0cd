import TransitionAudit.File.Tree

/-!
# Arguments

What the arguments of the command line ask for. Options are written in full, with their value in the
next argument or after an equals sign; of a repeated option the last value counts. The options for
help and version count before everything else.
-/

namespace TransitionAudit.Command

/-- An option and whether it has a value. -/
structure OptionSpec where
  name : Text
  hasValue : Bool

/-- An option as it was given. -/
structure Given where
  name : Text
  value : Text
  deriving DecidableEq, Repr

/-- Arguments that do not follow the usage. -/
inductive ArgumentFault
  | usage
  deriving DecidableEq, Repr

/-- What an audit is asked to do. -/
structure AuditRequest where
  folder : Path
  config : Option Path := none
  workers : Option Nat := none
  outputDir : Option Path := none
  asJson : Bool := false
  logLevel : Text := "WARNING"
  jsonLogs : Bool := false

/-- What the arguments ask for. -/
inductive Request
  | nothing
  | help
  | version
  | audit (request : AuditRequest)
  | rules (config : Option Path) (asJson : Bool)
  | checks

/-! ## Options -/

def helpOption : OptionSpec := ⟨"--help", false⟩

def versionOption : OptionSpec := ⟨"--version", false⟩

/-- An argument before and after its first equals sign. -/
def splitValue (arg : Text) : Text × Option Text :=
  match arg.span (· ≠ .char '=') with
  | (name, _ :: value) => (name, some value)
  | (_, []) => (arg, none)

def isOption (arg : Text) : Bool := arg.head? == some '-' && arg != "-"

/-- The options and the other arguments. Two dashes end the options; so does the first other argument,
unless options may follow it. -/
def readOptions (specs : List OptionSpec) (mixed : Bool) :
    List Text → Except ArgumentFault (List Given × List Text)
  | [] => .ok ([], [])
  | arg :: rest =>
    if arg = "--" then .ok ([], rest)
    else if isOption arg then
      let (name, value) := splitValue arg
      match specs.find? (·.name == name), value, rest with
      | none, _, _ => .error .usage
      | some ⟨_, true⟩, some v, rest | some ⟨_, true⟩, none, v :: rest =>
        (readOptions specs mixed rest).map fun (given, others) => (⟨name, v⟩ :: given, others)
      | some ⟨_, true⟩, none, [] => .error .usage
      | some ⟨_, false⟩, some _, _ => .error .usage
      | some ⟨_, false⟩, none, rest =>
        (readOptions specs mixed rest).map fun (given, others) => (⟨name, []⟩ :: given, others)
    else if mixed then
      (readOptions specs mixed rest).map fun (given, others) => (given, arg :: others)
    else .ok ([], arg :: rest)

/-- The value of an option, the last one if it is repeated. -/
def valueOf? (given : List Given) (name : Text) : Option Text :=
  (given.reverse.find? (·.name == name)).map (·.value)

def isGiven (given : List Given) (name : Text) : Bool := (valueOf? given name).isSome

/-- The request for help or the version, whichever is given first. -/
def eager? (given : List Given) : Option Request :=
  (given.find? fun g => g.name == helpOption.name || g.name == versionOption.name).map fun g =>
    if g.name == helpOption.name then .help else .version

/-! ## Values -/

/-- A path that can be looked up. -/
def readPath (s : Text) : Except ArgumentFault Path :=
  if s.contains '\x00' then .error .usage else .ok (Path.ofText s)

/-- A numeral without a point and zeros at its end. -/
def withoutZeros (s : List Char) : List Char :=
  match s.span (· ≠ '.') with
  | (whole, _ :: zeros) => if !zeros.isEmpty && zeros.all (· = '0') then whole else s
  | (_, []) => s

/-- A number of workers, at least one. It is written in ASCII; after a point there may be zeros. -/
def readWorkers (s : Text) : Except ArgumentFault Nat :=
  let body := Text.trimBy Numeral.isMargin s.toChars
  if body.any fun c => Numeral.isMargin c || 0x80 ≤ c.toNat then .error .usage
  else match Numeral.readInt (Text.ofChars (withoutZeros body)) with
    | .ok (.ofNat (n + 1)) => .ok (n + 1)
    | _ => .error .usage

/-- The fault of an option's value. -/
def checkValue (given : List Given) (name : Text) : Except ArgumentFault Unit :=
  match valueOf? given name with
  | none => .ok ()
  | some v =>
    if name = "--workers" then discard (readWorkers v)
    else if name = "--config" || name = "--output-dir" then discard (readPath v)
    else .ok ()

/-- Checks the values of the options in the order in which they are given. -/
def checkValues (given : List Given) : Except ArgumentFault Unit :=
  given.forM fun g => checkValue given g.name

def optional {α : Type} (read : Text → Except ArgumentFault α) :
    Option Text → Except ArgumentFault (Option α)
  | none => .ok none
  | some s => (read s).map some

/-! ## Requests -/

def auditOptions : List OptionSpec :=
  [helpOption, ⟨"--config", true⟩, ⟨"--workers", true⟩, ⟨"--output-dir", true⟩, ⟨"--json", false⟩,
   ⟨"--log-level", true⟩, ⟨"--json-logs", false⟩]

def rulesOptions : List OptionSpec := [helpOption, ⟨"--config", true⟩, ⟨"--json", false⟩]

/-- An audit needs the folder of the recordings. -/
def auditRequest (given : List Given) (others : List Text) : Except ArgumentFault Request := do
  checkValues given
  let folder ← match others with
    | [] => throw .usage
    | s :: _ => readPath s
  if 1 < others.length then throw .usage
  let value := valueOf? given
  return .audit {
    folder := folder
    config := ← optional readPath (value "--config")
    workers := ← optional readWorkers (value "--workers")
    outputDir := ← optional readPath (value "--output-dir")
    asJson := isGiven given "--json"
    logLevel := (value "--log-level").getD "WARNING"
    jsonLogs := isGiven given "--json-logs" }

def rulesRequest (given : List Given) (others : List Text) : Except ArgumentFault Request := do
  checkValues given
  if !others.isEmpty then throw .usage
  return .rules (← optional readPath (valueOf? given "--config")) (isGiven given "--json")

def checksRequest (_ : List Given) (others : List Text) : Except ArgumentFault Request :=
  if others.isEmpty then .ok .checks else .error .usage

/-- The request of a command with its arguments. -/
def subrequest (specs : List OptionSpec)
    (make : List Given → List Text → Except ArgumentFault Request) (args : List Text) :
    Except ArgumentFault Request := do
  let (given, others) ← readOptions specs true args
  match eager? given with
  | some r => return r
  | none => make given others

/-- The options in front of a command. -/
def groupOptions : List OptionSpec := [helpOption, versionOption]

/-- The request of all arguments. What comes after two dashes and is no command is read once more as
options. -/
def Request.ofArguments (args : List Text) : Except ArgumentFault Request := do
  let (given, others) ← readOptions groupOptions false args
  match eager? given, others with
  | some r, _ => return r
  | none, [] => return .nothing
  | none, command :: rest =>
    if command = "analyze" then subrequest auditOptions auditRequest rest
    else if command = "rules" then subrequest rulesOptions rulesRequest rest
    else if command = "checks" then subrequest [helpOption] checksRequest rest
    else
      let (given, _) ← readOptions groupOptions false others
      (eager? given).elim (throw .usage) pure

end TransitionAudit.Command
