import TransitionAudit.Audit.Run
import TransitionAudit.Json.Printer

/-!
# Log lines

How the events of a run are written to the error stream, and from which level on.
-/

namespace TransitionAudit.Command

/-- The capital letters of a letter that the name of a level may hold: dotless i, long s and the
ligatures of s and t have capitals among the letters A to Z. -/
def capitals (c : Char) : List Char :=
  if c = 'ı' then ['I']
  else if c = 'ſ' then ['S']
  else if c = 'ﬅ' || c = 'ﬆ' then ['S', 'T']
  else [c.toUpper]

/-- The levels by name, in capital letters. -/
def levels : List (Text × Nat) :=
  [("NOTSET", 0), ("DEBUG", 10), ("INFO", 20), ("WARN", 30), ("WARNING", 30), ("ERROR", 40),
   ("CRITICAL", 50), ("FATAL", 50)]

def defaultLevel : Nat := 30

/-- A name that is known but does not stand for a level. -/
inductive LevelFault
  /-- The name of the usual layout of log lines. -/
  | layout
  /-- The name of the table of layouts by the mark of their fields. -/
  | layouts
  deriving DecidableEq, Repr

/-- The layouts of log lines by the mark of their fields. -/
def layoutTable : List (Text × Text × Text) :=
  [("%", "PercentStyle", "%(levelname)s:%(name)s:%(message)s"),
   ("\x7b", "StrFormatStyle", "\x7blevelname\x7d:\x7bname\x7d:\x7bmessage\x7d"),
   ("$", "StringTemplateStyle", "$\x7blevelname\x7d:$\x7bname\x7d:$\x7bmessage\x7d")]

/-- An entry of the table of layouts. -/
def layoutLiteral : Text × Text × Text → Text
  | (mark, style, layout) =>
    Text.quote mark ++ ": (<class 'logging." ++ style ++ "'>, " ++ Text.quote layout ++ ")"

def LevelFault.message : LevelFault → Text
  | .layout => "Unknown level: '%(levelname)s:%(name)s:%(message)s'"
  | .layouts =>
    "Level not an integer or a valid string: \x7b" ++
      List.intercalate ", " (layoutTable.map layoutLiteral) ++ "\x7d"

/-- The level that a name stands for; a name that is not known stands for the default. -/
def levelOf (name : Text) : Except LevelFault Nat :=
  let name := Text.ofChars (name.toChars.flatMap capitals)
  if name = "BASIC_FORMAT" then .error .layout
  else if name = "_STYLES" then .error .layouts
  else .ok (((levels.find? fun (n, _) => n == name).map (·.2)).getD defaultLevel)

/-- The level of the events of a run. -/
def eventLevel : Nat := 20

def sourceName : Text := "flickercheck.engine"

/-- A log line with the time it is written at. -/
def logLine (asJson : Bool) (time : Text) (e : Event) : Text :=
  if asJson then
    Json.text Json.spaced (.obj [("ts", .str time), ("level", .str "INFO"),
      ("name", .str sourceName), ("msg", .str e.message)])
  else List.intercalate " | " [time, "INFO", sourceName, e.message]

end TransitionAudit.Command
