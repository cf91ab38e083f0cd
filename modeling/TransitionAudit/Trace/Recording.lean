import TransitionAudit.Trace.Row
import TransitionAudit.Json.Reader
import TransitionAudit.Json.Printer
import TransitionAudit.Text.Line
import TransitionAudit.Text.Utf8
import TransitionAudit.File.Room
import TransitionAudit.File.Tree

/-!
# Recordings

A recording is a file with one row on each line. Blank lines do not count as rows, but they count as
lines in messages. The first line that is no row is the fault of the whole file.
-/

namespace TransitionAudit

/-- Why a line is no row. -/
inductive LineFault
  | json (fault : Json.Fault)
  | row (fault : RowFault)

/-- Why a file is no recording. -/
inductive RecordingFault
  | file (fault : FileFault)
  | notUtf8 (path : Text) (fault : Text.Utf8.Fault)
  | badLine (path : Text) (number : Nat) (fault : LineFault)
  | disorder (path : Text) (fault : Disorder)
  | duplicate (path : Text) (fault : DuplicateId)
  /-- Files that a folder of recordings lacks. -/
  | missingFiles (folder : Text) (names : List Text)

namespace RecordingFault

def message : RecordingFault → Text
  | .file fault => fault.message
  | .notUtf8 path fault => path ++ ": not valid UTF-8: " ++ fault.message
  | .badLine path number fault =>
    let line := path ++ ":" ++ Numeral.nat number ++ ": "
    match fault with
    | .json (.longInteger digits) => line ++ Numeral.tooLongMessage digits
    | .json (.tooDeep isList) => (Json.Fault.tooDeep isList).message
    | .json fault => line ++ "invalid JSON: " ++ fault.message
    | .row (.collectionMode v) => (RowFault.collectionMode v).message
    | .row fault => line ++ fault.message
  | .disorder path fault => path ++ ": " ++ fault.message
  | .duplicate path fault => path ++ ": " ++ fault.message
  | .missingFiles folder names =>
    "Missing trace file(s) in " ++ folder ++ ": " ++ List.intercalate ", " names

end RecordingFault

namespace Recording

section
variable {β : Type} (room : Room)

/-- Reads the text of one row. -/
def readLine (read : Json → Except RowFault β) (line : List Char) : Except LineFault β :=
  match Json.read room.json line with
  | .error fault => .error (.json fault)
  | .ok v => (read v).mapError .row

/-- Reads the rows of lines, the first of which is line `number` of the file. -/
def readLines (read : Json → Except RowFault β) (path : Text) (number : Nat) :
    List (List Char) → Except RecordingFault (List β)
  | [] => .ok []
  | line :: rest =>
    if (Text.trim line).isEmpty then readLines read path (number + 1) rest
    else do
      let x ← (readLine room read (Text.trim line)).mapError (.badLine path number)
      let xs ← readLines read path (number + 1) rest
      return x :: xs

/-- Reads the rows of a text. -/
def readText (read : Json → Except RowFault β) (path : Text) (text : List Char) :
    Except RecordingFault (List β) :=
  readLines room read path 1 (Text.lines text)

/-- Reads the rows of a file. Octets that are not UTF-8 come to light after the faults in the lines that the stream
has handed out before them. -/
def readOctets (read : Json → Except RowFault β) (path : Text) (octets : List UInt8) :
    Except RecordingFault (List β) :=
  match Text.Utf8.stream octets with
  | ⟨text, none⟩ => readText room read path text
  | ⟨text, some fault⟩ => do
    discard (readText room read path (Text.completeLines text))
    throw (.notUtf8 path fault)

def readFile (read : Json → Except RowFault β) (t : Tree) (p : Path) :
    Except RecordingFault (List β) := do
  readOctets room read p.text (← (t.read p).mapError .file)

/-- A line for each row. -/
def text (write : β → Json) (rows : List β) : Text :=
  List.flatten (rows.map fun x => Json.text Json.compact (write x) ++ "\n")

end

/-! ## The three kinds -/

section
variable (room : Room)

def windows (t : Tree) (p : Path) : Except RecordingFault WindowTrace := do
  (Trace.of (← readFile room Row.toWindowState t p)).mapError (.disorder p.text)

def layers (t : Tree) (p : Path) : Except RecordingFault LayerTrace := do
  (Trace.of (← readFile room Row.toLayerState t p)).mapError (.disorder p.text)

def transitions (t : Tree) (p : Path) : Except RecordingFault TransitionLog := do
  (TransitionLog.of (← readFile room Row.toTransition t p)).mapError (.duplicate p.text)

end

end Recording

end TransitionAudit
