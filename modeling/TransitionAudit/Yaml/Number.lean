import TransitionAudit.Data.Value
import TransitionAudit.Yaml.Tag
import TransitionAudit.Text.Lower

/-!
# Numbers in YAML

The numbers that texts under the tags of integers and floating-point numbers stand for. Underscores do
not count. A number can be written in places of base sixty with colons between them.
-/

namespace TransitionAudit.Yaml

/-- Whether a text starts with a minus sign. -/
def isNegative (t : Text) : Bool := t.head? = some (.char '-')

/-- The text after a sign, if there is one. -/
def withoutSign : Text → Text
  | .char '-' :: rest | .char '+' :: rest => rest
  | t => t

/-- A text without underscores. -/
def withoutUnderscores (t : Text) : Text := t.filter fun p => p ≠ .char '_'

/-- The parts of a text between colons. -/
def placesOf (t : Text) : List Text := t.splitOn (.char ':')

def hasPlaces (t : Text) : Bool := t.contains (.char ':')

/-! ## Integers -/

/-- A decimal digit of any script as an ASCII digit. -/
def asciiDigit (c : Char) : Char := ((Text.digit? c).map Nat.digitChar).getD c

/-- The letters that mark a base in front of its digits. -/
def baseLetters (base : Nat) : List Char :=
  if base = 2 then ['b', 'B'] else if base = 8 then ['o', 'O'] else ['x', 'X']

/-- The text after a mark of the base. -/
def withoutBase (base : Nat) (s : List Char) : List Char :=
  match s with
  | '0' :: letter :: rest => if (baseLetters base).contains letter then rest else s
  | _ => s

/-- A number in a base that is a power of two. -/
def inBase (base : Nat) (t : Text) : Except Fault Int :=
  let body := (Text.trimBy Numeral.isMargin t.toChars).map asciiDigit
  match withoutBase base (Tag.unsigned body) with
  | [] => .error (.notInteger base t)
  | digits =>
    match Text.number? base digits with
    | some n => .ok (if body.head? = some '-' then -(n : Int) else n)
    | none => .error (.notInteger base t)

def inTen (t : Text) : Except Fault Int :=
  match Numeral.readInt t with
  | .ok i => .ok i
  | .error .notNumeral => .error (.notInteger 10 t)
  | .error (.tooLong digits) => .error (.longInteger digits)

/-- A number with its places in base sixty, the first one counting most. -/
def inSixty (t : Text) : Except Fault Int := do
  let places ← (placesOf t).mapM inTen
  return places.foldl (fun n d => n * 60 + d) 0

/-- An integer without its sign. -/
def magnitude (t : Text) : Except Fault Int :=
  match t with
  | [] => .error .emptyNumber
  | [.char '0'] => .ok 0
  | .char '0' :: .char 'b' :: rest => inBase 2 rest
  | .char '0' :: .char 'x' :: rest => inBase 16 rest
  | .char '0' :: _ => inBase 8 t
  | _ => if hasPlaces t then inSixty t else inTen t

/-- The integer of a text. -/
def integer (t : Text) : Except Fault Int := do
  let body := withoutUnderscores t
  let n ← magnitude (withoutSign body)
  return if isNegative body then -n else n

/-! ## Floating-point numbers -/

/-- Decimal digits, and the text after them. -/
def digitSpan (s : List Char) : List Char × List Char := s.span Char.isDigit

def digitsValue (ds : List Char) : Nat := Nat.ofDigitChars 10 ds 0

/-- The exponent of a decimal that ends with it. -/
def exponent? (s : List Char) : Option Int :=
  match s with
  | [] => some 0
  | e :: rest =>
    match digitSpan (Tag.unsigned rest) with
    | (d :: ds, []) =>
      let n : Int := digitsValue (d :: ds)
      if e ≠ 'e' && e ≠ 'E' then none else some (if rest.head? = some '-' then -n else n)
    | _ => none

/-- A decimal without its sign: digits with a point, and an exponent. -/
def decimal? (negative : Bool) (s : List Char) : Option Double :=
  let (whole, rest) := digitSpan s
  let (fraction, rest) := match rest with
    | '.' :: rest => digitSpan rest
    | rest => ([], rest)
  if whole.isEmpty && fraction.isEmpty then none
  else (exponent? rest).map fun e =>
    .ofDecimal negative (digitsValue (whole ++ fraction)) (e - fraction.length)

/-- A double as a decimal, or one of its words. -/
def double (t : Text) : Except Fault Double :=
  let body := (Text.trimBy Numeral.isMargin t.toChars).map asciiDigit
  let negative := body.head? = some '-'
  let bare := Tag.unsigned body
  let word := Text.ofChars (bare.map Char.toLower)
  if word = "inf" || word = "infinity" then .ok (.infinite negative)
  else if word = "nan" then .ok .nan
  else match decimal? negative bare with
    | some x => .ok x
    | none => .error (.notDouble t)

/-- The sum of places in base sixty, the last place coming first and counting as `unit`. -/
def sumOfPlaces : List Double → Nat → Double → Except Fault Double
  | [], _, total => .ok total
  | d :: rest, unit, total =>
    match Double.ofNat? unit with
    | some x => sumOfPlaces rest (unit * 60) (total.add (d.mul x))
    | none => .error .tooManyPlaces

/-- A double, and one that is no number as one that no other equals. -/
def ofDouble : Double → Scalar
  | .nan => .loneNan
  | x => .double x

/-- The floating-point number of a text; the case of letters does not count. -/
def floating (t : Text) : Except Fault Scalar := do
  let body := Text.lower (withoutUnderscores t)
  if body.isEmpty then throw .emptyNumber
  let bare := withoutSign body
  if bare = ".nan" then return .double .nan
  let x ←
    if bare = ".inf" then pure (.infinite false)
    else if hasPlaces bare then do
      let places ← (placesOf bare).mapM double
      sumOfPlaces places.reverse 1 (.zero false)
    else double bare
  return ofDouble (if isNegative body then x.negate else x)

end TransitionAudit.Yaml
