import TransitionAudit.Yaml.Number

/-!
# Typed scalars in YAML

The values that texts under a tag stand for: truth values, octets in base sixty-four, dates, moments and
numbers.
-/

namespace TransitionAudit.Yaml

def boolean (t : Text) : Except Fault Bool :=
  let word := Text.lower t
  if word = "yes" || word = "true" || word = "on" then .ok true
  else if word = "no" || word = "false" || word = "off" then .ok false
  else .error (.notBoolean word)

/-! ## Octets -/

/-- The value of a character in base sixty-four. -/
def sixBits? (c : Char) : Option Nat :=
  if c.isUpper then some (c.toNat - 65)
  else if c.isLower then some (c.toNat - 71)
  else if c.isDigit then some (c.toNat + 4)
  else if c = '+' then some 62
  else if c = '/' then some 63
  else none

/-- The octets of a text in base sixty-four. `place` counts the characters of a group of four that have
been read, `held` is what is left of the last one, and `pads` counts the padding after it; other
characters do not count, and a whole group ends with padding or without. -/
def octets (place held pads : Nat) : List Char → Except Fault (List UInt8)
  | [] => if place = 0 then .ok [] else .error .malformed
  | '=' :: rest =>
    if 2 ≤ place then
      if 4 ≤ place + pads + 1 then .ok [] else octets place held (pads + 1) rest
    else octets place held pads rest
  | c :: rest =>
    match sixBits? c with
    | none => octets place held pads rest
    | some n =>
      match place with
      | 0 => octets 1 n 0 rest
      | 1 => (octets 2 (n % 16) 0 rest).map (UInt8.ofNat (held * 4 + n / 16) :: ·)
      | 2 => (octets 3 (n % 4) 0 rest).map (UInt8.ofNat (held * 16 + n / 4) :: ·)
      | _ => (octets 0 0 0 rest).map (UInt8.ofNat (held * 64 + n) :: ·)

def binary (t : Text) : Except Fault (List UInt8) :=
  if t.all fun p => p.number < 0x80 then octets 0 0 0 t.toChars else .error .malformed

/-! ## Dates and moments -/

/-- The microseconds that digits after a point write; those after the sixth do not count. -/
def microseconds (fraction : List Char) : Nat :=
  Nat.ofDigitChars 10 ((fraction ++ List.replicate 6 '0').take 6) 0

/-- A date, or a moment if a time of day is written. -/
def moment (t : Text) : Except Fault Scalar := do
  let some p := Tag.momentParts (Tag.formOf t) | throw .notMoment
  match p.time with
  | none => return .date (← (Date.of? p.year p.month p.day).mapError .calendar)
  | some time =>
    let offset ← (time.offset.mapM Moment.offset?).mapError Fault.calendar
    let date ← (Date.of? p.year p.month p.day).mapError .calendar
    let m ← (Moment.of? date time.hour time.minute time.second (microseconds time.fraction)
      offset).mapError .calendar
    return .moment m

/-! ## All tags -/

/-- The value of a text under a tag of scalars. -/
def typed (tag : Tag) (t : Text) : Except Fault Scalar :=
  match tag with
  | .null => .ok .null
  | .bool => (boolean t).map .bool
  | .int => (integer t).map .int
  | .float => floating t
  | .binary => (binary t).map .bytes
  | .timestamp => moment t
  | .text => .ok (.text t)
  | _ => .error .malformed

end TransitionAudit.Yaml
