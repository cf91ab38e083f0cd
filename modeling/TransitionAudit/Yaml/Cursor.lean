import TransitionAudit.Number.Numeral
import TransitionAudit.Data.Moment

/-!
# Places in a YAML text

A cursor is what is left of a text together with the place reached. Lines end with LF, NEL, LS or PS;
CR is taken for LF before reading starts.
-/

namespace TransitionAudit.Yaml

/-- Why a text is no document. -/
inductive Fault
  /-- The text does not follow the grammar, or a tag does not fit its node. -/
  | malformed
  /-- An escape of a number that no character has. -/
  | noCharacter (code : Nat)
  /-- A scalar tagged as an integer that is none in its base. -/
  | notInteger (base : Nat) (text : Text)
  | longInteger (digits : Nat)
  /-- A scalar tagged as a floating-point number that is none. -/
  | notDouble (text : Text)
  /-- A scalar tagged as a number that holds nothing. -/
  | emptyNumber
  /-- A number in base sixty with more places than a double can have. -/
  | tooManyPlaces
  /-- A scalar tagged as a truth value that is none. -/
  | notBoolean (text : Text)
  /-- A scalar tagged as a moment that is none. -/
  | notMoment
  /-- A mapping tagged as a moment. -/
  | mappingMoment
  /-- A collection inside of too many others, or a mapping that leads to too many others where its entries or a scalar
  are wanted. -/
  | tooDeep
  | calendar (fault : CalendarFault)

structure Cursor where
  rest : List Char
  index : Nat := 0
  line : Nat := 0
  column : Nat := 0

/-! ## Kinds of characters -/

def isBreak (c : Char) : Bool := c = '\n' || c = '\x85' || c = '\u2028' || c = '\u2029'

/-- The text of a line break in a scalar: NEL counts as LF. -/
def breakText (c : Char) : Char := if c = '\x85' then '\n' else c

/-- Whether a line ends here. -/
def atLineEnd : Option Char → Bool
  | none => true
  | some c => isBreak c

/-- Whether a line ends here or goes on with a space. -/
def atSpace : Option Char → Bool
  | some ' ' => true
  | o => atLineEnd o

/-- Whether a line ends here or goes on with a space or a tab. -/
def atGap : Option Char → Bool
  | some '\t' => true
  | o => atSpace o

/-- A character of names of anchors and directives. -/
def isNameChar (c : Char) : Bool := c.isAlphanum || c = '-' || c = '_'

def isHexDigit (c : Char) : Bool := (Text.hexValue? c).isSome

/-- The number that hexadecimal digits write. -/
def hexNumber (digits : List Char) : Nat := (Text.number? 16 digits).getD 0

/-- A character that may stand in a document. -/
def isAllowed (c : Char) : Bool :=
  let n := c.toNat
  n = 0x9 || n = 0xa || n = 0xd || (0x20 ≤ n && n ≤ 0x7e) || n = 0x85 || (0xa0 ≤ n && n ≤ 0xd7ff)
    || (0xe000 ≤ n && n ≤ 0xfffd) || 0x10000 ≤ n

namespace Cursor

/-! ## Moving on -/

def peek (c : Cursor) : Option Char := c.rest.head?

/-- The character some places ahead. -/
def ahead (c : Cursor) (n : Nat) : Option Char := c.rest[n]?

/-- The place after one character. A byte order mark takes no column. -/
def next (c : Cursor) : Cursor :=
  match c.rest with
  | [] => c
  | ch :: rest =>
    if isBreak ch then ⟨rest, c.index + 1, c.line + 1, 0⟩
    else ⟨rest, c.index + 1, c.line, if ch = '\ufeff' then c.column else c.column + 1⟩

def skip : Nat → Cursor → Cursor
  | 0, c => c
  | n + 1, c => skip n c.next

/-- The characters of a kind that come next, and the place after them. -/
def span (c : Cursor) (kind : Char → Bool) : List Char × Cursor :=
  let taken := c.rest.takeWhile kind
  (taken, c.skip taken.length)

/-- The place after the spaces that come next. -/
def skipSpaces (c : Cursor) : Cursor := (c.span (· = ' ')).2

/-- The place at the end of the line, if a comment comes next. -/
def skipComment (c : Cursor) : Cursor :=
  if c.peek = some '#' then (c.span fun ch => !isBreak ch).2 else c

/-- The line break that comes next, and the place after it. -/
def lineBreak? (c : Cursor) : Option (Char × Cursor) :=
  match c.peek with
  | some ch => if isBreak ch then some (breakText ch, c.next) else none
  | none => none

/-- The place on the next line, if the rest of this one is empty or a comment. -/
def nextLine (c : Cursor) : Except Fault Cursor :=
  let c := c.skipSpaces.skipComment
  if atLineEnd c.peek then .ok c.next else .error .malformed

/-- Whether three characters stand here, with a gap after them. -/
def atMark (c : Cursor) (mark : Char) : Bool :=
  c.rest.take 3 = [mark, mark, mark] && atGap (c.ahead 3)

/-- Whether a document starts or ends here. -/
def atDocumentMark (c : Cursor) : Bool := c.atMark '-' || c.atMark '.'

end Cursor

end TransitionAudit.Yaml
