import TransitionAudit.Clock.Stamp
import TransitionAudit.Data.Literal

/-!
# Stamps from raw values

A stamp built from values that came from the outside: either strictly, from integers alone, or after
every value has been converted to an integer.
-/

namespace TransitionAudit.Stamp

/-- Why values are no stamp. -/
inductive Fault
  /-- A value that is no integer. -/
  | notInteger (clock : Clock) (value : Json)
  | negative (clock : Clock) (n : Int)
  /-- A value of a kind that no integer is read from. -/
  | notConvertible (value : Json)
  /-- A text that is no numeral. -/
  | notNumeral (text : Text)
  | longNumeral (digits : Nat)
  | notANumber
  | infinite

def Fault.message : Fault → Text
  | .notInteger c v => "Timestamp." ++ c.key ++ " must be an int, got " ++ v.literal
  | .negative c n => "Timestamp." ++ c.key ++ " must be non-negative, got " ++ Numeral.int n
  | .notConvertible v =>
    "int() argument must be a string, a bytes-like object or a real number, not '" ++ v.kindName ++ "'"
  | .notNumeral s => Numeral.notNumeralMessage 10 s
  | .longNumeral digits => Numeral.tooLongMessage digits
  | .notANumber => "cannot convert float NaN to integer"
  | .infinite => "cannot convert float infinity to integer"

/-- The reading of one clock: an integer that is not negative, and zero if there is none. -/
def reading (members : List (Text × Json)) (c : Clock) : Except Fault Nat :=
  match Json.find? members c.key with
  | none => .ok 0
  | some (.int (.ofNat n)) => .ok n
  | some (.int i) => .error (.negative c i)
  | some v => .error (.notInteger c v)

/-- A stamp from members named for the clocks; others are ignored. -/
def ofMembers (members : List (Text × Json)) : Except Fault Stamp := do
  let elapsed ← reading members .elapsed
  let uptime ← reading members .uptime
  let unix ← reading members .unix
  return ⟨elapsed, uptime, unix⟩

/-- The integer a value converts to: a double loses its fraction, a text is read as a numeral. -/
def toInteger : Json → Except Fault Int
  | .bool b => .ok (if b then 1 else 0)
  | .int i => .ok i
  | .double .nan => .error .notANumber
  | .double x =>
    match x.trunc? with
    | some i => .ok i
    | none => .error .infinite
  | .str s =>
    match Numeral.readInt s with
    | .ok i => .ok i
    | .error .notNumeral => .error (.notNumeral s)
    | .error (.tooLong digits) => .error (.longNumeral digits)
  | v => .error (.notConvertible v)

/-- A stamp from members of which those named for the clocks are converted first. -/
def ofConverted (members : List (Text × Json)) : Except Fault Stamp := do
  let converted ← Clock.all.mapM fun c => do
    let i ← toInteger ((Json.find? members c.key).getD (.int 0))
    return (c.key, Json.int i)
  ofMembers converted

/-- The clocks that were read, as members. -/
def toMembers (s : Stamp) : List (Text × Json) :=
  (Clock.all.filter fun c => s.on c != 0).map fun c => (c.key, .int (s.on c))

def toJson (s : Stamp) : Json := .obj s.toMembers

end TransitionAudit.Stamp
