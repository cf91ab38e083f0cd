import TransitionAudit.Text.Substring
import TransitionAudit.Text.Quoted

/-!
# Matchers

A matcher recognises the windows and layers of one component by the component's full name or its
short name. The class of a component is written in full, or with a leading dot for the package.
-/

namespace TransitionAudit

structure Matcher where
  package : Text
  className : Text
  deriving DecidableEq, Repr

namespace Matcher

/-- A matcher that recognises nothing. -/
def nothing : Matcher := ⟨"", ""⟩

/-- Package and class with a slash between them; a component without a package is its class. -/
def windowName (m : Matcher) : Text :=
  if m.package.isEmpty then m.className else m.package ++ "/" ++ m.className

/-- The name with the package left out of the class, where the class starts with it. -/
def shortName (m : Matcher) : Text :=
  if !m.package.isEmpty && (m.package ++ ".").isPrefixOf m.className then
    m.package ++ "/" ++ m.className.drop m.package.length
  else m.windowName

/-- Whether a window or layer belongs to the component: its name holds one of the component's. -/
def recognises (m : Matcher) (name : Text) : Bool :=
  if m.className.isEmpty then false
  else if m.package.isEmpty then Text.occursIn m.className name
  else Text.occursIn m.windowName name || Text.occursIn m.shortName name

/-- A name of the form `package/Class` or `package/.Class`. -/
def ofName? (name : Text) : Option Matcher :=
  match name.span (· ≠ .char '/') with
  | (_, []) => none
  | (package, _ :: className) =>
    if package.isEmpty || className.isEmpty || className.contains '/' then none
    else if className.head? = some (.char '.') then
      some ⟨package, package ++ className⟩
    else some ⟨package, className⟩

end Matcher

end TransitionAudit
