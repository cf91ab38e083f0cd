import TransitionAudit.Trace.Screen
import TransitionAudit.Transition.Basic
import TransitionAudit.Text.Sorted

/-!
# Rows of recordings

The JSON value that stands for one snapshot or one transition in a recording: which values are
accepted, what they mean, and the full row that is written for each.
-/

namespace TransitionAudit

/-- Why a value is no row. -/
inductive RowFault
  | notObject (what : Text)
  | notList (field : Text)
  | notBoolean (field : Text)
  | notName (field : Text)
  /-- The focused window is no text. -/
  | badFocus
  | badStamp (field : Text)
  | negativeStamp (field : Text)
  | unknownClocks (field : Text) (names : List Text)
  | badReading (field : Text) (clock : Clock)
  | badId
  | badType (id : Int) (value : Json)
  | badMode (id : Int) (index : Nat) (value : Json)
  /-- A list or an object where a mode is looked up. -/
  | collectionMode (value : Json)
  | endsBeforeStart (id : Int) (start stop : Stamp)

def RowFault.message : RowFault → Text
  | .notObject what => what ++ " must be an object"
  | .notList field => "Field `" ++ field ++ "` must be a list"
  | .notBoolean field => "Field `" ++ field ++ "` must be a boolean"
  | .notName field => "Field `" ++ field ++ "` must be a non-empty string"
  | .badFocus => "Field `focused_window` must be a string when provided"
  | .badStamp field => "Field `" ++ field ++ "` must be an integer or an object"
  | .negativeStamp field => "Field `" ++ field ++ "` must be non-negative"
  | .unknownClocks field names =>
    "Field `" ++ field ++ "` has unknown clock domains: " ++ List.intercalate ", " names
  | .badReading field clock =>
    "Field `" ++ field ++ "." ++ clock.key ++ "` must be a non-negative integer"
  | .badId => "Transition requires integer field `id`"
  | .badType id v =>
    "Transition #" ++ Numeral.int id ++ " has unsupported " ++ "`type`: " ++ v.literal
  | .badMode id index v =>
    "Transition #" ++ Numeral.int id ++ " changes[" ++ Numeral.nat index ++ "] has unsupported " ++
      "`transit_mode`: " ++ v.literal
  | .collectionMode v => "unhashable type: '" ++ v.kindName ++ "'"
  | .endsBeforeStart id start stop =>
    "Transition #" ++ Numeral.int id ++ " ends (" ++ stop.text ++ ") before it starts (" ++ start.text ++ ")"

namespace Row

/-! ## Fields -/

def object (what : Text) : Json → Except RowFault (List (Text × Json))
  | .obj members => .ok members
  | _ => .error (.notObject what)

/-- A list; `null` counts as an empty one. -/
def list (field : Text) : Json → Except RowFault (List Json)
  | .null => .ok []
  | .arr xs => .ok xs
  | _ => .error (.notList field)

/-- A truth value; `null` counts as the default. -/
def boolean (field : Text) (default : Bool) : Json → Except RowFault Bool
  | .null => .ok default
  | .bool b => .ok b
  | _ => .error (.notBoolean field)

/-- A text that is not empty. -/
def name (field : Text) : Json → Except RowFault Text
  | .str s => if s.isEmpty then .error (.notName field) else .ok s
  | _ => .error (.notName field)

/-- The reading of one clock, zero if it is absent. -/
def reading (field : Text) (members : List (Text × Json)) (c : Clock) : Except RowFault Nat :=
  match Json.find? members c.key with
  | none => .ok 0
  | some (.int (.ofNat n)) => .ok n
  | some _ => .error (.badReading field c)

/-- A stamp: a number of elapsed nanoseconds, or an object with a reading for some clocks. -/
def stamp (field : Text) : Json → Except RowFault Stamp
  | .int (.ofNat n) => .ok { elapsed := n }
  | .int (.negSucc _) => .error (.negativeStamp field)
  | .obj members => do
    let unknown := (members.map (·.1)).filter fun n => !Clock.all.any fun c => c.key == n
    if !unknown.isEmpty then
      throw (.unknownClocks field (Text.sortNames unknown))
    let elapsed ← reading field members .elapsed
    let uptime ← reading field members .uptime
    let unix ← reading field members .unix
    return ⟨elapsed, uptime, unix⟩
  | _ => .error (.badStamp field)

/-- The place of an item in a list field. -/
def place (field : Text) (index : Nat) : Text := field ++ "[" ++ Numeral.nat index ++ "]"

/-- A named thing that may be visible; it is unless the row says otherwise. -/
def thing (nameKey : Text) (here : Text) (v : Json) : Except RowFault (Text × Bool) := do
  let members ← object here v
  let n ← name (here ++ "." ++ nameKey) (Json.get members nameKey)
  let isVisible ← boolean (here ++ ".is_visible") true (Json.get members "is_visible")
  return (n, isVisible)

/-- Reads the items of a list field one by one, the first being in place `index`. -/
def itemsFrom {β : Type} (field : Text) (read : Nat → Text → Json → Except RowFault β)
    (index : Nat) : List Json → Except RowFault (List β)
  | [] => .ok []
  | v :: rest => do
    let x ← read index (place field index) v
    let xs ← itemsFrom field read (index + 1) rest
    return x :: xs

/-- The items of a list field. -/
def items {β : Type} (field : Text) (read : Nat → Text → Json → Except RowFault β)
    (members : List (Text × Json)) : Except RowFault (List β) := do
  itemsFrom field read 0 (← list field (Json.get members field))

/-! ## Snapshots -/

/-- The focused window; `null` means that no window has the focus. -/
def focus : Json → Except RowFault (Option Text)
  | .null => .ok none
  | .str s => .ok (some s)
  | _ => .error .badFocus

def toWindowState (v : Json) : Except RowFault WindowState := do
  let row ← object "Window manager entry" v
  let windows ← items "windows" (fun _ => thing "title") row
  let focused ← focus (Json.get row "focused_window")
  let taken ← stamp "timestamp" (Json.get row "timestamp")
  return ⟨taken, windows.map fun (title, isVisible) => ⟨title, isVisible⟩, focused⟩

def toLayerState (v : Json) : Except RowFault LayerState := do
  let row ← object "Layers entry" v
  let layers ← items "layers" (fun _ => thing "name") row
  let taken ← stamp "timestamp" (Json.get row "timestamp")
  return ⟨taken, layers.map fun (name, isVisible) => ⟨name, isVisible⟩⟩

/-! ## Transitions -/

def mode (id : Int) (index : Nat) : Json → Except RowFault Mode
  | .arr xs => .error (.collectionMode (.arr xs))
  | .obj ms => .error (.collectionMode (.obj ms))
  | .str s =>
    match Mode.ofName? s with
    | some m => .ok m
    | none => .error (.badMode id index (.str s))
  | v => .error (.badMode id index v)

def change (id : Int) (index : Nat) (here : Text) (v : Json) : Except RowFault Change := do
  let members ← object here v
  let mode ← mode id index (Json.get members "transit_mode")
  let window ← name (here ++ ".window_name") (Json.get members "window_name")
  return ⟨window, mode⟩

def transitionId : Json → Except RowFault Int
  | .int i => .ok i
  | _ => .error .badId

def transitionType (id : Int) : Json → Except RowFault TransitionType
  | .str s =>
    match TransitionType.ofText? s with
    | some t => .ok t
    | none => .error (.badType id (.str s))
  | v => .error (.badType id v)

def toTransition (v : Json) : Except RowFault Transition := do
  let row ← object "Transition" v
  let id ← transitionId (Json.get row "id")
  let type ← transitionType id (Json.get row "type")
  let changes ← items "changes" (change id) row
  let start ← stamp "start" (Json.get row "start")
  let stop ← stamp "end" (Json.get row "end")
  if stop < start then throw (.endsBeforeStart id start stop)
  let isIncomplete ← boolean "is_incomplete" false (Json.get row "is_incomplete")
  return ⟨id, start, stop, type, changes, isIncomplete⟩

end Row

/-! ## Full rows -/

namespace Window

def toJson (w : Window) : Json := .obj [("title", .str w.title), ("is_visible", .bool w.isVisible)]

end Window

namespace Layer

def toJson (l : Layer) : Json := .obj [("name", .str l.name), ("is_visible", .bool l.isVisible)]

end Layer

/-- A text, or `null` for none. -/
def Json.ofOption : Option Text → Json
  | none => .null
  | some s => .str s

namespace WindowState

def toJson (s : WindowState) : Json :=
  .obj [("timestamp", s.taken.toJson), ("windows", .arr (s.windows.map Window.toJson)),
    ("focused_window", Json.ofOption s.focused)]

end WindowState

namespace LayerState

def toJson (s : LayerState) : Json :=
  .obj [("timestamp", s.taken.toJson), ("layers", .arr (s.layers.map Layer.toJson))]

end LayerState

namespace Change

def toJson (c : Change) : Json :=
  .obj [("window_name", .str c.window), ("transit_mode", .str c.mode.name)]

end Change

namespace Transition

def toJson (t : Transition) : Json :=
  .obj [("id", .int t.id), ("type", .str t.type.text), ("start", t.start.toJson),
    ("end", t.stop.toJson), ("changes", .arr (t.changes.map Change.toJson)),
    ("is_incomplete", .bool t.isIncomplete)]

end Transition

end TransitionAudit
