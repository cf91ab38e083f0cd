import TransitionAudit.Text.Printable

/-!
# Quoted text

How messages show a text that came from the outside: between quotes, on one line, with everything
that is not printable written as an escape.
-/

namespace TransitionAudit.Text

def hexDigit (n : Nat) : Char := Nat.digitChar (n % 16)

/-- The low `width` hexadecimal digits of a number, in lower case. -/
def hex : Nat → Nat → List Char
  | 0, _ => []
  | width + 1, n => hex width (n / 16) ++ [hexDigit n]

/-- The quote is `'`, unless the text holds one and holds no `"`. -/
def quoteFor (t : Text) : Char := if t.contains '\'' && !t.contains '"' then '"' else '\''

/-- The escape of a code point by its number. -/
def numberEscape (n : Nat) : List Char :=
  if n < 0x100 then '\\' :: 'x' :: hex 2 n
  else if n < 0x10000 then '\\' :: 'u' :: hex 4 n
  else '\\' :: 'U' :: hex 8 n

/-- A character between two `quote`s. -/
def escape (quote c : Char) : List Char :=
  if c = quote || c = '\\' then ['\\', c]
  else if c = '\n' then ['\\', 'n']
  else if c = '\r' then ['\\', 'r']
  else if c = '\t' then ['\\', 't']
  else if isPrintable c then [c]
  else numberEscape c.toNat

/-- A code point between two `quote`s. -/
def escapePoint (quote : Char) : CodePoint → List Char
  | .char c => escape quote c
  | .surrogate n => numberEscape (CodePoint.surrogate n).number

/-- A text in quotes. -/
def quote (t : Text) : Text :=
  let q := quoteFor t
  ofChars (q :: t.flatMap (escapePoint q) ++ [q])

end TransitionAudit.Text
