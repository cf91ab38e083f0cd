import TransitionAudit.File.Path
import TransitionAudit.Text.Quoted
import TransitionAudit.Number.Numeral

/-!
# File trees

The directories and files that a command reads and writes, with the working directory. Every
operation is a function of the tree; those that change it give the new tree.
-/

namespace TransitionAudit

/-- What a name in a directory stands for. -/
inductive Node
  | directory
  | file (octets : List UInt8)
  deriving DecidableEq, Repr

/-- What a path was used for. -/
inductive PathUse
  | resolving
  | opening
  deriving DecidableEq, Repr

/-- Why an operation on a path has no result. -/
inductive FileFault
  | missing (path : Text)
  | notDirectory (path : Text)
  | isDirectory (path : Text)
  | exists (path : Text)
  | nameTooLong (path : Text)
  /-- A path that holds the character NUL. -/
  | nul (use : PathUse)
  /-- A path, or a text for a file, that has no octets. -/
  | notEncodable (fault : Text.Utf8.SurrogateFault)
  deriving DecidableEq, Repr

namespace FileFault

/-- The text of a fault that has a number among those of the system. -/
def numbered (number : Nat) (text path : Text) : Text :=
  "[Errno " ++ Numeral.nat number ++ "] " ++ text ++ ": " ++ Text.quote path

def message : FileFault → Text
  | .missing p => numbered 2 "No such file or directory" p
  | .exists p => numbered 17 "File exists" p
  | .notDirectory p => numbered 20 "Not a directory" p
  | .isDirectory p => numbered 21 "Is a directory" p
  | .nameTooLong p => numbered 36 "File name too long" p
  | .nul .resolving => "lstat: embedded null character in path"
  | .nul .opening => "embedded null byte"
  | .notEncodable fault => fault.message

end FileFault

structure Tree where
  /-- What the names from the root stand for; the root itself is not listed. -/
  nodes : List (List Text × Node)
  /-- The names from the root to the working directory. -/
  workingDir : List Text

/-- The octets of a path. -/
def Path.octets (p : Path) (use : PathUse) : Except FileFault (List UInt8) := do
  let octets ← (Text.Utf8.encodeName 0 p.text).mapError .notEncodable
  if octets.contains 0 then throw (.nul use)
  return octets

/-- The octets of a name; one that has none is as good as empty. -/
def nameOctets (name : Text) : List UInt8 := (Text.Utf8.encodeName 0 name).toOption.getD []

/-- Whether names stand for the same octets. -/
def sameNames (a b : List Text) : Bool := a == b || a.map nameOctets == b.map nameOctets

namespace Tree

/-! ## Finding -/

/-- What stands at names from the root. -/
def node? (t : Tree) (names : List Text) : Option Node :=
  if names.isEmpty then some .directory else (t.nodes.find? fun e => sameNames e.1 names).map (·.2)

/-- The greatest number of octets in a name. -/
def maxNameSize : Nat := 255

/-- The greatest number of octets in a path. -/
def maxPathSize : Nat := 4095

/-- Follows names from a directory: every name but the last one has to stand for a directory. Gives
the names from the root, and what stands there. -/
def walk (t : Tree) (path : Text) (here : List Text) :
    List Text → Except FileFault (List Text × Option Node)
  | [] => .ok (here, t.node? here)
  | name :: rest =>
    match t.node? here with
    | none => .error (.missing path)
    | some (.file _) => .error (.notDirectory path)
    | some .directory =>
      if name = Path.up then walk t path here.dropLast rest
      else if maxNameSize < (nameOctets name).length then .error (.nameTooLong path)
      else
        let there := here ++ [name]
        if (t.node? there).isNone && !rest.isEmpty then .error (.missing path)
        else walk t path there rest

/-- Where a path leads, and what stands there. -/
def locate (t : Tree) (p : Path) : Except FileFault (List Text × Option Node) := do
  if maxPathSize < (← p.octets .opening).length then throw (.nameTooLong p.text)
  walk t p.text (if p.isAbsolute then [] else t.workingDir) p.names

/-- Looks at all places on the way along names from a directory. -/
def visitNames (here : List Text) : List Text → Except FileFault Unit
  | [] => .ok ()
  | name :: rest =>
    if name = Path.up then visitNames here.dropLast rest
    else do
      let there := here ++ [name]
      discard (Path.octets ⟨.single, there⟩ .resolving)
      visitNames there rest

/-- Where a path leads by its names alone. All places on the way are looked at. -/
def resolve (t : Tree) (p : Path) : Except FileFault Path := do
  visitNames (if p.isAbsolute then [] else t.workingDir) p.names
  return p.resolve t.workingDir

/-- What a path leads to, `none` where there is nothing. -/
def lookup (t : Tree) (p : Path) : Except FileFault (Option Node) :=
  match t.locate p with
  | .ok (_, node) => .ok node
  | .error (.missing _) | .error (.notDirectory _) | .error (.nul _) | .error (.notEncodable _) =>
    .ok none
  | .error fault => .error fault

def has (t : Tree) (p : Path) : Except FileFault Bool := (t.lookup p).map Option.isSome

def isFile (t : Tree) (p : Path) : Except FileFault Bool :=
  (t.lookup p).map fun
    | some (.file _) => true
    | _ => false

def isDirectory (t : Tree) (p : Path) : Except FileFault Bool :=
  (t.lookup p).map fun node => node = some .directory

/-! ## Reading and writing -/

/-- The octets of a file. -/
def read (t : Tree) (p : Path) : Except FileFault (List UInt8) :=
  match t.locate p with
  | .error fault => .error fault
  | .ok (_, none) => .error (.missing p.text)
  | .ok (_, some .directory) => .error (.isDirectory p.text)
  | .ok (_, some (.file octets)) => .ok octets

/-- Sets what stands at names from the root. -/
def putNode (names : List Text) (node : Node) :
    List (List Text × Node) → List (List Text × Node)
  | [] => [(names, node)]
  | (n, x) :: rest =>
    if sameNames n names then (n, node) :: rest else (n, x) :: putNode names node rest

def put (t : Tree) (names : List Text) (node : Node) : Tree :=
  { t with nodes := putNode names node t.nodes }

/-- Writes a file in an existing directory, over the file that stood there. -/
def write (t : Tree) (p : Path) (octets : List UInt8) : Except FileFault Tree :=
  match t.locate p with
  | .error fault => .error fault
  | .ok (_, some .directory) => .error (.isDirectory p.text)
  | .ok (names, _) => .ok (t.put names (.file octets))

/-- Writes a text in UTF-8. One that has no octets leaves an empty file. -/
def writeText (t : Tree) (p : Path) (text : Text) : Tree × Option FileFault :=
  let (octets, fault) := match Text.Utf8.encode text with
    | .ok octets => (octets, none)
    | .error fault => ([], some (.notEncodable fault))
  match t.write p octets with
  | .ok t => (t, fault)
  | .error fault => (t, some fault)

/-- Makes a directory in an existing one. -/
def makeDirectory (t : Tree) (p : Path) : Except FileFault Tree :=
  match t.locate p with
  | .error fault => .error fault
  | .ok (_, some _) => .error (.exists p.text)
  | .ok (names, none) => .ok (t.put names .directory)

/-- The tree itself if the path leads to a directory, else the fault of making one. -/
def orExisting (t : Tree) (p : Path) (fault : FileFault) : Except FileFault Tree := do
  if ← t.isDirectory p then return t else throw fault

/-- Makes the directory of some names, the last one first, and those above it as far as they are
missing. -/
def makeDirectoriesUp (root : PathRoot) : List Text → Tree → Except FileFault Tree
  | [], t => .ok t
  | name :: above, t =>
    let p : Path := ⟨root, above.reverse ++ [name]⟩
    match t.makeDirectory p with
    | .ok t => .ok t
    | .error (.missing _) => do
      let t ← makeDirectoriesUp root above t
      match t.makeDirectory p with
      | .ok t => return t
      | .error fault => t.orExisting p fault
    | .error fault => t.orExisting p fault

/-- Makes a directory with all those above it; one that is there already will do. -/
def makeDirectories (t : Tree) (p : Path) : Except FileFault Tree :=
  makeDirectoriesUp p.root p.names.reverse t

end Tree

end TransitionAudit
