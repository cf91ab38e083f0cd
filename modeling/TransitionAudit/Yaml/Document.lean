import TransitionAudit.Yaml.Build
import TransitionAudit.Text.Line

/-!
# YAML documents

The value a YAML text stands for: one document of plain data.
-/

namespace TransitionAudit.Yaml

/-- The value of a text with one document, `none` if it has no document. There may be `depth` levels of collections,
each of which takes two calls to read. -/
def read (depth : Nat) (text : List Char) : Except Fault (Option Value) :=
  if !text.all isAllowed then .error .malformed
  else do
    let (graph, root) ← graphOf depth (Text.unifyLineEnds text)
    root.mapM (graph.toValue (2 * depth))

/-- The text of a fault. -/
def Fault.message : Fault → Text
  | .malformed => "the text is no document of plain data"
  | .noCharacter code =>
    if code < 0x80000000 then "chr() arg not in range(0x110000)"
    else "Python int too large to convert to C int"
  | .notInteger base text => Numeral.notNumeralMessage base text
  | .longInteger digits => Numeral.tooLongMessage digits
  | .notDouble text => "could not convert string to float: " ++ Text.quote text
  | .emptyNumber => "string index out of range"
  | .tooManyPlaces => "int too large to convert to float"
  | .notBoolean text => Text.quote text
  | .notMoment => "'NoneType' object has no attribute 'groupdict'"
  | .mappingMoment => "expected string or bytes-like object, got 'list'"
  | .tooDeep => "maximum recursion depth exceeded"
  | .calendar fault => fault.message

end TransitionAudit.Yaml
