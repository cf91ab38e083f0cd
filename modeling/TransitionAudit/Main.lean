import Std.Time.Zoned
import TransitionAudit.Command.Run

/-!
# The program

Takes a picture of the files that the arguments can reach, runs the command on it, and writes what has
changed back to the disk.
-/

namespace TransitionAudit.Program

/-- What stands at a path on the disk: a directory refuses to be read as a file. -/
def readNode (path : Text) : IO (Option Node) := do
  try
    return some (.file (← IO.FS.readBinFile path.toString).toList)
  catch
    | .inappropriateType none .. => return some .directory
    | _ => return none

/-- Adds what stands at names from a directory, as far as there are such directories. -/
def addNames (t : Tree) (above : List Text) : List Text → IO Tree
  | [] => return t
  | name :: rest => do
    let here := above ++ [name]
    let known := t.node? here
    let node ← match known with
      | some node => pure (some node)
      | none => readNode (Path.text ⟨.single, here⟩)
    match node with
    | none => return t
    | some node => addNames (t.put here node) here rest

def addPath (t : Tree) (p : Path) : IO Tree := addNames t [] (p.absoluteNames t.workingDir)

/-- Adds a rule file and the files it has as bases, of which there are at most `links`. -/
def addChain (t : Tree) (p : Path) : Nat → IO Tree
  | 0 => addPath t p
  | links + 1 => do
    let t ← addPath t p
    let base := do
      let document ← (t.ruleDocument .usual p).toOption
      match document.base? with
      | some (.scalar (.text name)) => ((t.library .usual).basePath p name).toOption
      | _ => none
    match base with
    | none => return t
    | some base => addChain t base links

def addAll (t : Tree) (ps : List Path) : IO Tree := ps.foldlM addPath t

/-- Adds the files that a request reads or writes. -/
def addRequest (t : Tree) (r : Command.Request) : IO Tree := do
  let absolute (p : Path) : Path := p.resolve t.workingDir
  let chain (t : Tree) : Option Path → IO Tree
    | none => return t
    | some p => addChain t (absolute p) maxLinks
  match r with
  | .audit r => do
    let t ← chain t r.config
    let t ← addAll t (Recordings.fileNames.map (absolute r.folder).child)
    match r.outputDir with
    | none => return t
    | some dir =>
      addAll t [(absolute dir).child Command.jsonReport, (absolute dir).child Command.markdownReport]
  | .rules config _ => chain t config
  | _ => return t

/-- The directories and files that the arguments can reach. -/
def snapshot (args : List Text) : IO Tree := do
  let here := Path.ofText (Text.ofString (toString (← IO.currentDir)))
  let t ← addNames ⟨[], here.names⟩ [] here.names
  match Command.Request.ofArguments args with
  | .ok r => addRequest t r
  | .error _ => return t

/-- Writes what is new or different in a tree to the disk. -/
def apply (before after : Tree) : IO Unit := do
  for (names, node) in after.nodes do
    if before.node? names != some node then
      let path := (Path.text ⟨.single, names⟩).toString
      match node with
      | .directory => IO.FS.createDirAll path
      | .file octets => IO.FS.writeBinFile path ⟨octets.toArray⟩

/-- The local time, to the second. -/
def now : IO Text := do
  let t ← Std.Time.PlainDateTime.now
  let two (i : Int) : Text := Numeral.padded 2 i.toNat
  let date := List.intercalate "-"
    [Numeral.padded 4 t.year.toInt.toNat, two t.month.val, two t.day.val]
  return date ++ "T" ++ List.intercalate ":" [two t.hour.val, two t.minute.val, two t.second.val]

end TransitionAudit.Program

open TransitionAudit in
/-- Runs a command and ends with its status. -/
def main (args : List String) : IO UInt32 := do
  let args := args.map Text.ofString
  let before ← Program.snapshot args
  let outcome := Command.run .usual before (← Program.now) args
  Program.apply before outcome.tree
  IO.print outcome.output.toString
  IO.eprint outcome.errors.toString
  if let some failure := outcome.failure then IO.eprintln failure.message.toString
  return outcome.status.toUInt32
