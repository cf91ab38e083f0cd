import TransitionAudit.Data.Value
import TransitionAudit.Number.Shortest
import TransitionAudit.Text.Quoted

/-!
# Values in messages

How a message shows a value: a text in quotes, a collection with its items in brackets. On its own, a
text is shown as it is.
-/

namespace TransitionAudit

/-- Octets in quotes; what is not printable ASCII is escaped. -/
def bytesLiteral (octets : List UInt8) : Text :=
  let cs := octets.map fun b => Char.ofNat b.toNat
  let q := Text.quoteFor (Text.ofChars cs)
  let escape (c : Char) : List Char :=
    if 0x80 ≤ c.toNat then Text.numberEscape c.toNat else Text.escape q c
  Text.ofChars ('b' :: q :: cs.flatMap escape ++ [q])

namespace Scalar

/-- A scalar inside the text of a collection, or quoted in a message. -/
def literal : Scalar → Text
  | .null => "None"
  | .bool true => "True"
  | .bool false => "False"
  | .int i => Numeral.int i
  | .double x => x.text Double.plain
  | .loneNan => Double.text Double.plain .nan
  | .text t => Text.quote t
  | .bytes octets => bytesLiteral octets
  | .date d => d.literal
  | .moment m => m.literal

/-- A scalar on its own. -/
def plain : Scalar → Text
  | .text t => t
  | .date d => d.text
  | .moment m => m.text
  | s => s.literal

/-- The kind of a scalar, as messages name it. -/
def kindName : Scalar → Text
  | .null => "NoneType"
  | .bool _ => "bool"
  | .int _ => "int"
  | .double _ | .loneNan => "float"
  | .text _ => "str"
  | .bytes _ => "bytes"
  | .date _ => "datetime.date"
  | .moment _ => "datetime.datetime"

/-- Whether a scalar can be written: an integer can if it is not too long. -/
def isWritable : Scalar → Bool
  | .int i => Numeral.isWritable i
  | _ => true

end Scalar

namespace Value

mutual

/-- A value inside the text of a collection, or quoted in a message. A collection inside of itself is
three dots. -/
def literal : Value → Text
  | .scalar s => s.literal
  | .list xs => "[" ++ List.intercalate ", " (literals xs) ++ "]"
  | .map es => "\x7b" ++ List.intercalate ", " (entryLiterals es) ++ "\x7d"
  | .pair k v => "(" ++ literal k ++ ", " ++ literal v ++ ")"
  | .set [] => "set()"
  | .set ms => "\x7b" ++ List.intercalate ", " (ms.map Scalar.literal) ++ "\x7d"
  | .cyclic _ body => literal body
  | .again _ true => "[...]"
  | .again _ false => "\x7b...\x7d"

def literals : List Value → List Text
  | [] => []
  | x :: xs => literal x :: literals xs

def entryLiterals : Entries → List Text
  | [] => []
  | (k, v) :: es => (k.literal ++ ": " ++ literal v) :: entryLiterals es

end

mutual

/-- Whether everything in a value can be written. -/
def isWritable : Value → Bool
  | .scalar s => s.isWritable
  | .list xs => areWritable xs
  | .map es => entriesAreWritable es
  | .pair k v => isWritable k && isWritable v
  | .set ms => ms.all Scalar.isWritable
  | .cyclic _ body => isWritable body
  | .again .. => true

def areWritable : List Value → Bool
  | [] => true
  | x :: xs => isWritable x && areWritable xs

def entriesAreWritable : Entries → Bool
  | [] => true
  | (k, v) :: es => k.isWritable && isWritable v && entriesAreWritable es

end

/-- A value on its own. -/
def plain : Value → Text
  | .scalar s => s.plain
  | v => v.literal

end Value

/-- A JSON value quoted in a message. -/
def Json.literal (x : Json) : Text := x.toValue.literal

/-- The kind of a JSON value, as messages name it. -/
def Json.kindName : Json → Text
  | .null => "NoneType"
  | .bool _ => "bool"
  | .int _ => "int"
  | .double _ => "float"
  | .str _ => "str"
  | .arr _ => "list"
  | .obj _ => "dict"

end TransitionAudit
