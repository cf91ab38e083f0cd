import TransitionAudit.Rule.Chain
import TransitionAudit.File.Room

/-!
# Rule files

Rule documents as YAML files in a file tree. A base is named by its path from the directory of the
file that names it.
-/

namespace TransitionAudit

/-- The entries of a document, what it names as its base coming last. Where a document is part of
itself, it names no base there. -/
def documentEntries? (v : Value) : Option Entries := do
  let own ← (v.eraseKey (.text baseKey)).entries?
  let base := Entries.value? (← v.entries?) (.text baseKey)
  return own ++ (base.map fun b => (Scalar.text baseKey, b)).toList

/-- The document in the octets of a file; an empty file is an empty mapping. -/
def documentOfOctets (room : Room) (path : Path) (octets : List UInt8) : Except SourceFault Entries := do
  let text ← (Text.Utf8.decode? octets).mapError (.notUtf8 path.text)
  match Yaml.read (room.yaml path) text with
  | .error .malformed => throw (.notYaml path.text)
  | .error fault => throw (.notData fault)
  | .ok none | .ok (some (.scalar .null)) => return []
  | .ok (some v) =>
    match documentEntries? v with
    | some document => return document
    | none => throw (.notMapping path.text)

namespace Tree

def ruleDocument (t : Tree) (room : Room) (path : Path) : Except SourceFault Entries :=
  match t.read path with
  | .ok octets => documentOfOctets room path octets
  | .error (.nul use) => .error (.badPath (.nul use))
  | .error (.notEncodable fault) => .error (.badPath (.notEncodable fault))
  | .error fault => .error (.unreadable path.text fault)

end Tree

/-- Where rule files are kept: what documents they hold, what there is, and where a path leads by its
names. -/
structure Library where
  document : Path → Except SourceFault Entries
  has : Path → Except FileFault Bool
  resolve : Path → Except FileFault Path

namespace Library

/-- The path of a base: one that is relative starts where the file is that names it. -/
def basePath (l : Library) (path : Path) (name : Text) : Except FileFault Path :=
  let p := Path.ofText name
  if p.isAbsolute then .ok p else l.resolve (path.parent.join p)

/-- The file that a file names as its base. -/
def base (l : Library) (path : Path) (name : Text) : Except SourceFault Path := do
  let base ← (l.basePath path name).mapError .badPath
  if ← (l.has base).mapError .badPath then return base else throw (.missingBase base.text)

def shelf (l : Library) : Shelf := ⟨l.document, l.base⟩

/-- The rule table of a file. -/
def table (l : Library) (path : Path) : Except SourceFault RuleTable := do
  let document ← l.document path
  let source ← (l.resolve path).mapError .badPath
  let merged ← l.shelf.inherit maxLinks source document
  (RuleTable.ofDocument merged (some source.text)).mapError .document

end Library

namespace Tree

def library (t : Tree) (room : Room) : Library := ⟨t.ruleDocument room, t.has, t.resolve⟩

def ruleTable (t : Tree) (room : Room) (path : Path) : Except SourceFault RuleTable :=
  (t.library room).table path

end Tree

end TransitionAudit
