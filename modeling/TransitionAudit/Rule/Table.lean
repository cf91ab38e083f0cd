import TransitionAudit.Rule.Basic

/-!
# Rule tables

Which rules apply to which transitions. The rules under `ALL` come first for every transition, then
those under its type; a rule that comes up again is left out.
-/

namespace TransitionAudit

/-- The first of each group of equal rules, in order. -/
def dedupe (rules : List Rule) : List Rule := rules.eraseDups

structure RuleTable where
  /-- The rules of each heading, in the order of the headings. -/
  rows : List (Text × List Rule)
  /-- The file the table was read from. -/
  source : Option Text := none

namespace RuleTable

/-- The heading of the rules for all transitions. -/
def everyType : Text := "ALL"

/-- Sets the rules of a heading: a known heading keeps its place, a new one comes last. -/
def put (heading : Text) (rules : List Rule) :
    List (Text × List Rule) → List (Text × List Rule)
  | [] => [(heading, rules)]
  | (h, rs) :: rest =>
    if h = heading then (h, rules) :: rest else (h, rs) :: put heading rules rest

/-- A table from rules under headings; the last of a repeated heading counts. -/
def of (rows : List (Text × List Rule)) (source : Option Text) : RuleTable :=
  ⟨(rows.foldl (fun acc (h, rs) => put h rs acc) []).map fun (h, rs) => (h, dedupe rs), source⟩

/-- The rules under a heading. -/
def under (t : RuleTable) (heading : Text) : List Rule :=
  ((t.rows.find? fun row => row.1 == heading).map (·.2)).getD []

/-- The rules for a type of transition. -/
def rulesFor (t : RuleTable) (type : TransitionType) : List Rule :=
  dedupe (t.under everyType ++ t.under type.text)

def headings (t : RuleTable) : List Text := t.rows.map (·.1)

def toJson (t : RuleTable) : Json :=
  .obj (t.rows.map fun (h, rs) => (h, .arr (rs.map Rule.toJson)))

/-! ## The built-in table -/

def notEmptyRules : List Rule :=
  [⟨.notEmpty .windows, none, none, by decide⟩, ⟨.notEmpty .layers, none, none, by decide⟩]

/-- The app that opens gets a layer that turns visible, and a window that is visible in the end. -/
def openingRules : List Rule :=
  [⟨.becomes true, some .openingApp, none, by decide⟩,
   ⟨.visibleAtEnd .windows, some .openingApp, none, by decide⟩]

/-- The app that closes gets a layer that turns invisible, and no window that is visible in the
end. -/
def closingRules : List Rule :=
  [⟨.becomes false, some .closingApp, none, by decide⟩,
   ⟨.invisibleAtEnd .windows, some .closingApp, none, by decide⟩]

def builtIn : RuleTable :=
  .of [(everyType, notEmptyRules), (Mode.name .open, openingRules),
    (Mode.name .toFront, openingRules), (Mode.name .close, closingRules),
    (Mode.name .toBack, closingRules)] none

end RuleTable

end TransitionAudit
