import TransitionAudit.Rule.Document
import TransitionAudit.Yaml.Document
import TransitionAudit.File.Tree

/-!
# Chains of rule documents

A rule document may name another one as its base under `extends`; it is then laid over that one, which
may have a base of its own. A chain has at most ten links, so a chain that goes round is refused.
-/

namespace TransitionAudit

/-- Why no rule table comes out of a file. -/
inductive SourceFault
  | unreadable (path : Text) (fault : FileFault)
  | notUtf8 (path : Text) (fault : Text.Utf8.Fault)
  | notYaml (path : Text)
  /-- A scalar that does not fit its tag, or data too deep to be read. -/
  | notData (fault : Yaml.Fault)
  | notMapping (path : Text)
  | chainTooLong
  /-- The name of a base is no text, or a blank one. -/
  | badBase (path : Text)
  | missingBase (path : Text)
  /-- A path that cannot be looked up. -/
  | badPath (fault : FileFault)
  | unmergeable (fault : MergeFault)
  | document (fault : DocumentFault)

/-- The greatest number of links in a chain. -/
def maxLinks : Nat := 10

def SourceFault.message : SourceFault → Text
  | .unreadable path fault => "Rule config could not be read: " ++ path ++ ": " ++ fault.message
  | .notUtf8 path fault => "Rule config is not valid UTF-8: " ++ path ++ ": " ++ fault.message
  | .notYaml path => "Rule config is not valid YAML: " ++ path ++ ": " ++ Yaml.Fault.malformed.message
  | .notData fault => fault.message
  | .notMapping path => "Rule config file must be a mapping: " ++ path
  | .chainTooLong =>
    "Rule config extends depth exceeded " ++ Numeral.nat maxLinks ++ ": circular reference?"
  | .badBase path => "extends must be a non-empty string in " ++ path
  | .missingBase path => "extends target not found: " ++ path
  | .badPath fault => fault.message
  | .unmergeable fault => fault.message
  | .document fault => fault.message

/-- Where rule documents come from. -/
structure Shelf where
  /-- The document of a file. -/
  document : Path → Except SourceFault Entries
  /-- The file that a file names as its base, which has to exist. -/
  base : Path → Text → Except SourceFault Path

/-- The key under which a document names its base. -/
def baseKey : Text := "extends"

/-- What a document names as its base; `null` counts as nothing. -/
def Entries.base? (document : Entries) : Option Value :=
  match Entries.get? document baseKey with
  | some (.scalar .null) => none
  | v => v

/-- The name of a base. -/
def baseName (path : Path) : Value → Except SourceFault Text
  | .scalar (.text s) => if (Text.strip s).isEmpty then .error (.badBase path.text) else .ok s
  | _ => .error (.badBase path.text)

namespace Shelf

/-- A document of a file laid over the chain of its bases, of which at most so many are followed. -/
def inherit (s : Shelf) (links : Nat) (path : Path) (document : Entries) :
    Except SourceFault Entries :=
  let own := Entries.erase document (.text baseKey)
  match document.base?, links with
  | none, _ => .ok own
  | some _, 0 => .error .chainTooLong
  | some v, links + 1 => do
    let base ← s.base path (← baseName path v)
    let below ← s.inherit links base (← s.document base)
    (Entries.layOver below own).mapError .unmergeable

end Shelf

end TransitionAudit
