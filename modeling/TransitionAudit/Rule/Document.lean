import TransitionAudit.Rule.Table
import TransitionAudit.Data.Merge

/-!
# Rule documents

The rule table a document stands for. Under `transitions` the document lists rules for each type of
transition, or for `ALL`; a rule is the name of a check, or a mapping of check, component and name.
Blanks around names do not count.
-/

namespace TransitionAudit

/-- The place of a rule in a document. -/
structure RulePlace where
  heading : Text
  index : Nat
  deriving DecidableEq, Repr

def headingText (heading : Text) : Text := "transitions." ++ heading

def RulePlace.text (p : RulePlace) : Text := headingText p.heading ++ "[" ++ Numeral.nat p.index ++ "]"

/-- Why an item of a document is no rule. -/
inductive ItemFault
  /-- Neither a text nor a mapping. -/
  | badShape
  | unknownKeys (names : List Text)
  /-- Unknown keys that cannot be sorted. -/
  | unsortedKeys (fault : OrderFault)
  /-- An unknown key that is no text, and its place among the unknown keys. -/
  | keyNotText (index : Nat) (key : Scalar)
  | badCheck
  | badComponent
  | badName
  | rule (fault : RuleFault)

/-- Why a document is no rule table. -/
inductive DocumentFault
  | unsupportedVersion (found : Text)
  | transitionsNotMapping
  | badHeading (heading : Text)
  | rulesNotList (heading : Text)
  /-- A version or a heading that holds an integer too long to be written. -/
  | unwritable
  | item (place : RulePlace) (fault : ItemFault)

/-- The version of documents that is read. -/
def documentVersion : Text := "1"

def ItemFault.message (p : RulePlace) : ItemFault → Text
  | .badShape => p.text ++ " must be a check name or a mapping"
  | .unknownKeys names => p.text ++ " has unknown keys: " ++ List.intercalate ", " names
  | .unsortedKeys fault => fault.message
  | .keyNotText index key =>
    "sequence item " ++ Numeral.nat index ++ ": expected str instance, " ++ key.kindName ++ " found"
  | .badCheck => p.text ++ ".check must be a non-empty string"
  | .badComponent => p.text ++ ".component must be a string"
  | .badName => p.text ++ ".name must be a non-empty string"
  | .rule fault => p.text ++ ": " ++ fault.message

def DocumentFault.message : DocumentFault → Text
  | .unsupportedVersion found =>
    "Unsupported rule config schema_version: " ++ found ++ ". Supported: " ++ documentVersion
  | .transitionsNotMapping => "transitions must be a mapping of transition type to rule list"
  | .badHeading heading => headingText heading ++ " is not a supported transition type"
  | .rulesNotList heading => headingText heading ++ " must be a list"
  | .unwritable => Numeral.unwritableMessage
  | .item place fault => fault.message place

/-! ## One rule -/

namespace Rule

/-- The keys of a rule that is written as a mapping. -/
def documentKeys : List Text := ["check", "component", "name"]

def isDocumentKey (key : Scalar) : Bool := documentKeys.any fun n => key.sameKey (.text n)

/-- Texts, or the first key that is none; the first key is in place `index`. -/
def keyTexts (index : Nat) : List Scalar → Except ItemFault (List Text)
  | [] => .ok []
  | .text s :: rest => (keyTexts (index + 1) rest).map (s :: ·)
  | key :: _ => .error (.keyNotText index key)

/-- Demands that there are no keys but those of a rule. -/
def noUnknownKeys (item : Entries) : Except ItemFault Unit := do
  let unknown := (item.map (·.1)).filter fun key => !isDocumentKey key
  let sorted ← (sortEntries (unknown.map fun key => (key, ()))).mapError .unsortedKeys
  let names ← keyTexts 0 (sorted.map (·.1))
  if !names.isEmpty then throw (.unknownKeys names)

/-- A text with something in it besides blanks, which are left out at its ends. -/
def nonblank? : Value → Option Text
  | .scalar (.text s) => if (Text.strip s).isEmpty then none else some (Text.strip s)
  | _ => none

def checkField (v : Option Value) : Except ItemFault Text :=
  match v.bind nonblank? with
  | some s => .ok s
  | none => .error .badCheck

/-- The name of a component, without blanks at its ends; it may be absent. -/
def componentField : Option Value → Except ItemFault (Option Text)
  | none | some (.scalar .null) => .ok none
  | some (.scalar (.text s)) => .ok (some (Text.strip s))
  | some _ => .error .badComponent

/-- A name; it may be absent. -/
def nameField : Option Value → Except ItemFault (Option Text)
  | none | some (.scalar .null) => .ok none
  | some v =>
    match nonblank? v with
    | some s => .ok (some s)
    | none => .error .badName

/-- A component by name, if a name is given. -/
def componentNamed : Option Text → Except RuleFault (Option Component)
  | none => .ok none
  | some name => (Component.lookup name).map some

/-- A rule from the names of its parts. -/
def named (check : Text) (component name : Option Text) : Except RuleFault Rule := do
  Rule.of check (← componentNamed component) name

/-- A rule that is written as a mapping. -/
def ofEntries (item : Entries) : Except ItemFault Rule := do
  noUnknownKeys item
  let check ← checkField (Entries.get? item "check")
  let component ← componentField (Entries.get? item "component")
  let name ← nameField (Entries.get? item "name")
  (named check component name).mapError .rule

/-- A rule of a document. -/
def ofItem : Value → Except ItemFault Rule
  | .scalar (.text s) => ofEntries [(.text "check", .scalar (.text s))]
  | v => (v.entries?).elim (.error .badShape) ofEntries

end Rule

/-! ## The table -/

namespace RuleTable

/-- Reads the rules under a heading, the first being in place `index`. -/
def readRules (heading : Text) (index : Nat) : List Value → Except DocumentFault (List Rule)
  | [] => .ok []
  | v :: rest => do
    let r ← (Rule.ofItem v).mapError (.item ⟨heading, index⟩)
    let rs ← readRules heading (index + 1) rest
    return r :: rs

/-- The heading a key stands for. -/
def headingOf (key : Scalar) : Except DocumentFault Text :=
  if key.isWritable then .ok (Text.strip key.plain) else .error .unwritable

/-- Whether rules may be listed under a heading. -/
def isHeading (s : Text) : Bool := s == everyType || (TransitionType.ofText? s).isSome

/-- A list; `null` counts as an empty one. -/
def itemsOf? : Value → Option (List Value)
  | .scalar .null => some []
  | v => v.items?

/-- One heading with its rules. -/
def readRow (key : Scalar) (v : Value) : Except DocumentFault (Text × List Rule) := do
  let heading ← headingOf key
  if !isHeading heading then throw (.badHeading heading)
  match itemsOf? v with
  | none => throw (.rulesNotList heading)
  | some xs => return (heading, ← readRules heading 0 xs)

/-- The version a document is written in, as a text. -/
def versionOf (document : Entries) : Except DocumentFault Text :=
  match Entries.get? document "schema_version" with
  | none => .ok documentVersion
  | some v => if v.isWritable then .ok (Text.strip v.plain) else .error .unwritable

/-- The headings of a document with what stands under them. -/
def rowsOf (document : Entries) : Except DocumentFault Entries :=
  match Entries.get? document "transitions" with
  | none | some (.scalar .null) => .ok []
  | some v => (v.entries?).elim (.error .transitionsNotMapping) .ok

/-- The table a document stands for. -/
def ofDocument (document : Entries) (source : Option Text) : Except DocumentFault RuleTable := do
  let version ← versionOf document
  if version ≠ documentVersion then throw (.unsupportedVersion version)
  let rows ← rowsOf document
  let read ← rows.mapM fun (key, v) => readRow key v
  return .of read source

end RuleTable

end TransitionAudit
