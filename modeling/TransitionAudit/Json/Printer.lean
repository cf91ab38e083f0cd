import TransitionAudit.Json.Basic
import TransitionAudit.Number.Shortest
import TransitionAudit.Text.Quoted

/-!
# Writing JSON

Values on one line or indented, in ASCII: every other character is written as one escape, or two for
a character beyond U+FFFF.
-/

namespace TransitionAudit.Json

/-! ## Strings -/

/-- A code unit as an escape. -/
def unitEscape (n : Nat) : List Char := '\\' :: 'u' :: Text.hex 4 n

def escapeChar (c : Char) : List Char :=
  if c = '"' then ['\\', '"']
  else if c = '\\' then ['\\', '\\']
  else if c = '\n' then ['\\', 'n']
  else if c = '\r' then ['\\', 'r']
  else if c = '\t' then ['\\', 't']
  else if c = '\x08' then ['\\', 'b']
  else if c = '\x0c' then ['\\', 'f']
  else if 0x20 ≤ c.toNat && c.toNat ≤ 0x7e then [c]
  else if c.toNat < 0x10000 then unitEscape c.toNat
  else
    let n := c.toNat - 0x10000
    unitEscape (0xd800 + n / 0x400) ++ unitEscape (0xdc00 + n % 0x400)

def escapePoint : CodePoint → List Char
  | .char c => escapeChar c
  | .surrogate n => unitEscape (CodePoint.surrogate n).number

def stringText (s : Text) : List Char := '"' :: s.flatMap escapePoint ++ ['"']

/-! ## Values -/

/-- The doubles of JSON texts. -/
def doubleStyle : Double.Style := { Double.plain with nan := "NaN", infinity := "Infinity" }

/-- How values are laid out. -/
structure Layout where
  /-- Between two items on one line. -/
  comma : List Char
  /-- Between a name and its value. -/
  colon : List Char
  /-- How many blanks a level is indented by, if each item has a line of its own. -/
  indent : Option Nat
  deriving DecidableEq, Repr

/-- One line without blanks. -/
def compact : Layout := ⟨[','], [':'], none⟩

/-- One line with a blank after each comma and colon. -/
def spaced : Layout := ⟨[',', ' '], [':', ' '], none⟩

/-- A line for each item, each level two blanks further in. -/
def indented : Layout := ⟨[','], [':', ' '], some 2⟩

/-- The line break before an item at a depth, if items have lines of their own. -/
def Layout.newline (l : Layout) (depth : Nat) : List Char :=
  match l.indent with
  | none => []
  | some width => '\n' :: List.replicate (width * depth) ' '

/-- Members sorted by name, in the order of code points. -/
def sortMembers (members : List (Text × Json)) : List (Text × Json) :=
  members.mergeSort fun a b => a.1 ≤ b.1

mutual

/-- A value at a depth, the members of its objects in the order they have. -/
def write (l : Layout) (depth : Nat) : Json → List Char
  | .null => ['n', 'u', 'l', 'l']
  | .bool true => ['t', 'r', 'u', 'e']
  | .bool false => ['f', 'a', 'l', 's', 'e']
  | .int i => (Numeral.int i).toChars
  | .double x => (x.text doubleStyle).toChars
  | .str s => stringText s
  | .arr [] => ['[', ']']
  | .arr (x :: xs) =>
    '[' :: l.newline (depth + 1) ++ write l (depth + 1) x ++ writeItems l (depth + 1) xs
      ++ l.newline depth ++ [']']
  | .obj [] => ['\x7b', '\x7d']
  | .obj ((n, x) :: ms) =>
    '\x7b' :: l.newline (depth + 1) ++ stringText n ++ l.colon ++ write l (depth + 1) x
      ++ writeMembers l (depth + 1) ms ++ l.newline depth ++ ['\x7d']

/-- The items after the first. -/
def writeItems (l : Layout) (depth : Nat) : List Json → List Char
  | [] => []
  | x :: xs => l.comma ++ l.newline depth ++ write l depth x ++ writeItems l depth xs

/-- The members after the first. -/
def writeMembers (l : Layout) (depth : Nat) : List (Text × Json) → List Char
  | [] => []
  | (n, x) :: ms =>
    l.comma ++ l.newline depth ++ stringText n ++ l.colon ++ write l depth x
      ++ writeMembers l depth ms

end

mutual

/-- The value with the members of every object sorted by name. -/
def sorted : Json → Json
  | .arr xs => .arr (sortedItems xs)
  | .obj ms => .obj (sortMembers (sortedMembers ms))
  | x => x

def sortedItems : List Json → List Json
  | [] => []
  | x :: xs => sorted x :: sortedItems xs

def sortedMembers : List (Text × Json) → List (Text × Json)
  | [] => []
  | (n, x) :: ms => (n, sorted x) :: sortedMembers ms

end

/-- The text of a value with sorted members. -/
def text (l : Layout) (x : Json) : Text := Text.ofChars (write l 0 (sorted x))

end TransitionAudit.Json
