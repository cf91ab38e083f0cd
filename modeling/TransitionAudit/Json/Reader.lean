import TransitionAudit.Json.Basic

/-!
# Reading JSON

One JSON document per text. Besides the standard the reader takes `NaN`, `Infinity` and `-Infinity`;
of a repeated member name the last value counts. A fault says what was expected where reading
stopped.
-/

namespace TransitionAudit.Json

/-- Why a text is not one JSON document. -/
inductive Fault
  | byteOrderMark
  | expectedValue
  | expectedName
  | expectedColon
  | expectedComma
  | extraData
  | openString
  | controlCharacter
  | badEscape
  | badUnicodeEscape
  /-- An integer of more digits than are read. -/
  | longInteger (digits : Nat)
  /-- A list or an object inside of too many others. -/
  | tooDeep (isList : Bool)
  deriving DecidableEq, Repr

def Fault.message : Fault → Text
  | .byteOrderMark => "Unexpected UTF-8 BOM (decode using utf-8-sig)"
  | .expectedValue => "Expecting value"
  | .expectedName => "Expecting property name enclosed in double quotes"
  | .expectedColon => "Expecting ':' delimiter"
  | .expectedComma => "Expecting ',' delimiter"
  | .extraData => "Extra data"
  | .openString => "Unterminated string starting at"
  | .controlCharacter => "Invalid control character at"
  | .badEscape => "Invalid \\escape"
  | .badUnicodeEscape => "Invalid \\uXXXX escape"
  | .longInteger digits => Numeral.tooLongMessage digits
  | .tooDeep isList =>
    "maximum recursion depth exceeded while decoding a JSON " ++ (if isList then "array" else "object")
      ++ " from a unicode string"

/-- A value and the text after it, or a fault. -/
abbrev Read (α : Type) := Except Fault (α × List Char)

def isSpace (c : Char) : Bool := c = ' ' || c = '\t' || c = '\n' || c = '\r'

def skipSpace (s : List Char) : List Char := s.dropWhile isSpace

/-! ## Strings -/

def escaped? : Char → Option Char
  | '"' => some '"'
  | '\\' => some '\\'
  | '/' => some '/'
  | 'b' => some '\x08'
  | 'f' => some '\x0c'
  | 'n' => some '\n'
  | 'r' => some '\r'
  | 't' => some '\t'
  | _ => none

def isHighSurrogate (n : Nat) : Bool := 0xd800 ≤ n && n ≤ 0xdbff

def isLowSurrogate (n : Nat) : Bool := 0xdc00 ≤ n && n ≤ 0xdfff

/-- A code point by number. -/
def pointOf (n : Nat) : CodePoint := (CodePoint.ofNumber? n).getD '\ufffd'

/-- The code points of code units: a high and a low surrogate in a row are one character. -/
def joinUnits : List Nat → Text
  | [] => []
  | [n] => [pointOf n]
  | high :: low :: rest =>
    if isHighSurrogate high && isLowSurrogate low then
      pointOf (0x10000 + (high - 0xd800) * 0x400 + (low - 0xdc00)) :: joinUnits rest
    else pointOf high :: joinUnits (low :: rest)

/-- Puts a unit before the units read after it. -/
def prepend (n : Nat) : Read (List Nat) → Read (List Nat)
  | .ok (units, rest) => .ok (n :: units, rest)
  | .error fault => .error fault

/-- The code units up to the closing quote. Four digits at the very end of the text are no escape,
since the string is still open. -/
def stringUnits : List Char → Read (List Nat)
  | [] => .error .openString
  | '"' :: rest => .ok ([], rest)
  | '\\' :: 'u' :: a :: b :: c :: d :: rest =>
    match Text.number? 16 [a, b, c, d], rest.isEmpty with
    | some n, false => prepend n (stringUnits rest)
    | _, _ => .error .badUnicodeEscape
  | '\\' :: c :: rest =>
    if c = 'u' then .error .badUnicodeEscape
    else match escaped? c with
      | some x => prepend x.toNat (stringUnits rest)
      | none => .error .badEscape
  | '\\' :: [] => .error .openString
  | c :: rest =>
    if c.toNat < 0x20 then .error .controlCharacter else prepend c.toNat (stringUnits rest)

/-- The string up to the closing quote. -/
def stringBody (s : List Char) : Read Text :=
  (stringUnits s).map fun (units, rest) => (joinUnits units, rest)

/-! ## Numbers -/

def digitSpan (s : List Char) : List Char × List Char := s.span Char.isDigit

def digitsValue (ds : List Char) : Nat := Nat.ofDigitChars 10 ds 0

/-- The digits after a point, if a digit follows the point. -/
def fractionPart : List Char → List Char × List Char
  | '.' :: rest =>
    match digitSpan rest with
    | ([], _) => ([], '.' :: rest)
    | (ds, rest) => (ds, rest)
  | s => ([], s)

/-- The exponent, if the text goes on with a whole one. -/
def exponentPart (s : List Char) : Option Int × List Char :=
  match s with
  | c :: rest =>
    if c = 'e' || c = 'E' then
      let (negative, rest) := match rest with
        | '-' :: rest => (true, rest)
        | '+' :: rest => (false, rest)
        | rest => (false, rest)
      match digitSpan rest with
      | ([], _) => (none, s)
      | (ds, rest) => (some (if negative then -digitsValue ds else digitsValue ds), rest)
    else (none, s)
  | [] => (none, [])

/-- The whole part of a number: one zero, or digits that start with another digit. -/
def wholePart : List Char → Option (List Char × List Char)
  | '0' :: rest => some (['0'], rest)
  | s =>
    match digitSpan s with
    | ([], _) => none
    | (ds, rest) => some (ds, rest)

/-- A number without its sign. A fraction or an exponent makes it a double. -/
def number (negative : Bool) (s : List Char) : Read Json :=
  match wholePart s with
  | none => .error .expectedValue
  | some (whole, rest) =>
    let (fraction, rest) := fractionPart rest
    let (exponent, rest) := exponentPart rest
    if fraction.isEmpty && exponent.isNone then
      if Numeral.maxDigits < whole.length then .error (.longInteger whole.length)
      else .ok (.int (if negative then -(digitsValue whole : Int) else digitsValue whole), rest)
    else
      let x := Double.ofDecimal negative (digitsValue (whole ++ fraction))
        (exponent.getD 0 - fraction.length)
      .ok (.double x, rest)

/-! ## Values -/

/-- A literal word, a number or a string; `none` where a list or an object starts. -/
def scalar (s : List Char) : Option (Read Json) :=
  match s with
  | [] => some (.error .expectedValue)
  | '[' :: _ | '\x7b' :: _ => none
  | '"' :: rest => some ((stringBody rest).map fun (x, rest) => (.str x, rest))
  | 'n' :: 'u' :: 'l' :: 'l' :: rest => some (.ok (.null, rest))
  | 't' :: 'r' :: 'u' :: 'e' :: rest => some (.ok (.bool true, rest))
  | 'f' :: 'a' :: 'l' :: 's' :: 'e' :: rest => some (.ok (.bool false, rest))
  | 'N' :: 'a' :: 'N' :: rest => some (.ok (.double .nan, rest))
  | 'I' :: 'n' :: 'f' :: 'i' :: 'n' :: 'i' :: 't' :: 'y' :: rest =>
    some (.ok (.double (.infinite false), rest))
  | '-' :: 'I' :: 'n' :: 'f' :: 'i' :: 'n' :: 'i' :: 't' :: 'y' :: rest =>
    some (.ok (.double (.infinite true), rest))
  | '-' :: rest => some (number true rest)
  | s => some (number false s)

/-- The name of a member and the colon after it. -/
def memberName (s : List Char) : Read Text :=
  match s with
  | '"' :: rest =>
    match stringBody rest with
    | .error fault => .error fault
    | .ok (name, rest) =>
      match skipSpace rest with
      | ':' :: rest => .ok (name, skipSpace rest)
      | _ => .error .expectedColon
  | _ => .error .expectedName

mutual

/-- One value, inside of which there may be `depth` levels of lists and objects. Every character read
costs at most two units of fuel. -/
def value (depth : Nat) : Nat → List Char → Read Json
  | 0, _ => .error .expectedValue
  | fuel + 1, s =>
    match scalar s with
    | some r => r
    | none =>
      match depth, s with
      | 0, c :: _ => .error (.tooDeep (c = '['))
      | depth + 1, '[' :: rest =>
        match skipSpace rest with
        | ']' :: rest => .ok (.arr [], rest)
        | rest => (items depth fuel rest).map fun (xs, rest) => (.arr xs, rest)
      | depth + 1, _ :: rest =>
        match skipSpace rest with
        | '\x7d' :: rest => .ok (.obj [], rest)
        | rest => (members depth fuel rest).map fun (ms, rest) => (object ms, rest)
      | _, [] => .error .expectedValue

/-- One item and those after it, up to the closing bracket. -/
def items (depth : Nat) : Nat → List Char → Read (List Json)
  | 0, _ => .error .expectedValue
  | fuel + 1, s =>
    match value depth fuel s with
    | .error fault => .error fault
    | .ok (x, rest) =>
      match skipSpace rest with
      | ']' :: rest => .ok ([x], rest)
      | ',' :: rest => (items depth fuel (skipSpace rest)).map fun (xs, rest) => (x :: xs, rest)
      | _ => .error .expectedComma

/-- One member and those after it, up to the closing brace. -/
def members (depth : Nat) : Nat → List Char → Read (List (Text × Json))
  | 0, _ => .error .expectedValue
  | fuel + 1, s =>
    match memberName s with
    | .error fault => .error fault
    | .ok (name, rest) =>
      match value depth fuel rest with
      | .error fault => .error fault
      | .ok (x, rest) =>
        match skipSpace rest with
        | '\x7d' :: rest => .ok ([(name, x)], rest)
        | ',' :: rest =>
          (members depth fuel (skipSpace rest)).map fun (ms, rest) => ((name, x) :: ms, rest)
        | _ => .error .expectedComma

end

/-- Reads a text that is one JSON document with white space around it, of at most `depth` levels of lists and
objects. -/
def read (depth : Nat) (s : List Char) : Except Fault Json :=
  match s with
  | '\ufeff' :: _ => .error .byteOrderMark
  | s =>
    match value depth (2 * s.length + 1) (skipSpace s) with
    | .error fault => .error fault
    | .ok (x, rest) => if (skipSpace rest).isEmpty then .ok x else .error .extraData

end TransitionAudit.Json
