import TransitionAudit.Text.Utf8

/-!
# Paths

Names with slashes between them. A path is relative, or absolute with one slash in front, or two;
empty names and dots leave no trace, while two dots stand for the parent and stay in a path until it
is resolved.
-/

namespace TransitionAudit

/-- Where a path starts. -/
inductive PathRoot
  | relative
  | single
  /-- Exactly two slashes, which a path keeps. -/
  | double
  deriving DecidableEq, Repr

namespace PathRoot

def text : PathRoot → Text
  | .relative => ""
  | .single => "/"
  | .double => "//"

/-- The start of a path by the number of slashes in front. -/
def ofSlashes : Nat → PathRoot
  | 0 => .relative
  | 2 => .double
  | _ => .single

end PathRoot

structure Path where
  root : PathRoot
  names : List Text
  deriving DecidableEq, Repr

namespace Path

/-- Whether a name between slashes counts. -/
def isName (s : Text) : Bool := s != "" && s != "."

def ofText (s : Text) : Path :=
  ⟨.ofSlashes (s.takeWhile (· = .char '/')).length, (s.splitOn (.char '/')).filter isName⟩

/-- The path with slashes; a path without names is a dot. -/
def text (p : Path) : Text :=
  if p.root = .relative && p.names.isEmpty then ("." : Text)
  else p.root.text ++ List.intercalate "/" p.names

def isAbsolute (p : Path) : Bool := p.root ≠ .relative

/-- A path taken from another one; an absolute path stands on its own. -/
def join (base p : Path) : Path := if p.isAbsolute then p else ⟨base.root, base.names ++ p.names⟩

/-- The entry of a name in a directory. -/
def child (p : Path) (name : Text) : Path := ⟨p.root, p.names ++ [name]⟩

def parent (p : Path) : Path := ⟨p.root, p.names.dropLast⟩

/-- The last name, empty if there is none. -/
def name (p : Path) : Text := p.names.getLast?.getD ""

/-- The name of the directory above. -/
def up : Text := ".."

/-- Follows names from a directory, given by its names from the root; the parent of the root is the
root. -/
def follow (here : List Text) (names : List Text) : List Text :=
  names.foldl (fun dir name => if name = up then dir.dropLast else dir ++ [name]) here

/-- The names from the root to where a path leads, seen from a working directory. -/
def absoluteNames (workingDir : List Text) (p : Path) : List Text :=
  follow (if p.isAbsolute then [] else workingDir) p.names

/-- The path from the root, without a detour over a parent. -/
def resolve (workingDir : List Text) (p : Path) : Path := ⟨.single, p.absoluteNames workingDir⟩

end Path

end TransitionAudit
