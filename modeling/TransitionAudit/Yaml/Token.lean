import TransitionAudit.Yaml.Scalar
import TransitionAudit.Text.Utf8

/-!
# Tokens of a YAML text

The marks, properties and scalars a YAML text consists of. Marks for the start and the end of block
collections come from the indentation. What turns out to be a key only by the colon after it is kept
in mind as a possible key, and its marks are put in front of it then; a possible key is given up at
the end of its line or after 1024 characters.
-/

namespace TransitionAudit.Yaml

/-- A line that starts with a percent sign. -/
inductive Directive
  | version (major : Nat)
  | tag (handle uri : Text)
  | other
  deriving DecidableEq

inductive Token
  | directive (d : Directive)
  | documentStart
  | documentEnd
  | blockSequenceStart
  | blockMappingStart
  | blockEnd
  | flowSequenceStart
  | flowSequenceEnd
  | flowMappingStart
  | flowMappingEnd
  | blockEntry
  | flowEntry
  | key
  | value
  | alias (name : Text)
  | anchor (name : Text)
  /-- A tag with its handle, if it is written with one. -/
  | tag (handle : Option Text) (suffix : Text)
  | scalar (plain : Bool) (text : Text)
  deriving DecidableEq

/-! ## Names, tags and directives -/

/-- The name of an anchor after its mark. -/
def anchorName (c : Cursor) : Except Fault (Text × Cursor) :=
  let (name, c) := c.span isNameChar
  let ends := atGap c.peek || c.peek.any fun ch => "?:,]\x7d%@\x60".toList.contains ch
  if name.isEmpty || !ends then .error .malformed else .ok (Text.ofChars name, c)

def isUriChar (c : Char) : Bool := c.isAlphanum || "-;/?:@&=+$,_.!~*'()[]".toList.contains c

/-- Octets written as percent signs with two digits each. -/
def uriOctets : List Char → Except Fault (List UInt8)
  | '%' :: a :: b :: rest =>
    if isHexDigit a && isHexDigit b then
      (uriOctets rest).map (UInt8.ofNat (hexNumber [a, b]) :: ·)
    else .error .malformed
  | '%' :: _ => .error .malformed
  | _ => .ok []

/-- A part of a tag: characters as they stand and octets of UTF-8. -/
def uriParts : Nat → Cursor → Except Fault (List Char × Cursor)
  | 0, c => .ok ([], c)
  | fuel + 1, c => do
    let (plain, c) := c.span isUriChar
    if c.peek = some '%' then
      let octets ← uriOctets c.rest
      match Text.Utf8.decode? octets with
      | .error _ => throw .malformed
      | .ok text =>
        let (more, c) ← uriParts fuel (c.skip (3 * octets.length))
        return (plain ++ text ++ more, c)
    else return (plain, c)

/-- A part of a tag that is not empty. -/
def tagUri (c : Cursor) : Except Fault (Text × Cursor) := do
  if !(c.peek.any fun ch => isUriChar ch || ch = '%') then throw .malformed
  let (uri, c) ← uriParts (c.rest.length + 1) c
  return (Text.ofChars uri, c)

/-- A handle of tags: an exclamation mark, or a name between two of them. -/
def tagHandle (c : Cursor) : Except Fault (Text × Cursor) :=
  if c.peek ≠ some '!' then .error .malformed
  else if c.ahead 1 = some ' ' then .ok ("!", c.next)
  else
    let (name, c) := c.next.span isNameChar
    if c.peek = some '!' then .ok (Text.ofChars ('!' :: name ++ ['!']), c.next)
    else .error .malformed

/-- Whether an exclamation mark comes up before the next space. -/
def hasHandle (rest : List Char) : Bool :=
  (rest.takeWhile fun ch => !atSpace (some ch)).contains '!'

/-- A tag from its exclamation mark on. -/
def tagToken (c : Cursor) : Except Fault (Token × Cursor) := do
  let (token, c) ←
    if c.ahead 1 = some '<' then do
      let (uri, c) ← tagUri (c.skip 2)
      if c.peek ≠ some '>' then throw .malformed
      pure (Token.tag none uri, c.next)
    else if atGap (c.ahead 1) then pure (Token.tag none "!", c.next)
    else if hasHandle (c.rest.drop 1) then do
      let (handle, c) ← tagHandle c
      let (uri, c) ← tagUri c
      pure (Token.tag (some handle) uri, c)
    else do
      let (uri, c) ← tagUri c.next
      pure (Token.tag (some "!") uri, c)
  if atSpace c.peek then return (token, c) else throw .malformed

/-- The number at a cursor. -/
def directiveNumber (c : Cursor) : Except Fault (Nat × Cursor) :=
  match c.span Char.isDigit with
  | ([], _) => .error .malformed
  | (digits, c) =>
    if Numeral.maxDigits < digits.length then .error (.longInteger digits.length)
    else .ok (Nat.ofDigitChars 10 digits 0, c)

/-- A directive after its percent sign, up to the next line. -/
def directiveToken (c : Cursor) : Except Fault (Directive × Cursor) := do
  let (name, c) := c.span isNameChar
  if name.isEmpty || !atSpace c.peek then throw .malformed
  let (directive, c) ←
    if name = ['Y', 'A', 'M', 'L'] then do
      let (major, c) ← directiveNumber c.skipSpaces
      if c.peek ≠ some '.' then throw .malformed
      let (_, c) ← directiveNumber c.next
      if !atSpace c.peek then throw .malformed
      pure (Directive.version major, c)
    else if name = ['T', 'A', 'G'] then do
      let (handle, c) ← tagHandle c.skipSpaces
      if c.peek ≠ some ' ' then throw .malformed
      let (uri, c) ← tagUri c.skipSpaces
      if !atSpace c.peek then throw .malformed
      pure (Directive.tag handle uri, c)
    else pure (Directive.other, (c.span fun ch => !isBreak ch).2)
  return (directive, ← c.nextLine)

/-! ## The state of reading -/

/-- A token that is a key if a colon follows. -/
structure PossibleKey where
  /-- The number of tokens before it. -/
  place : Nat
  /-- Whether its line can be nothing but a key. -/
  required : Bool
  index : Nat
  line : Nat
  column : Nat

structure Lexer where
  cursor : Cursor
  /-- The tokens read, the last one first. -/
  tokens : List Token := []
  /-- The column of the innermost block collection, `-1` outside of all. -/
  indent : Int := -1
  /-- The columns of the collections around it. -/
  outer : List Int := []
  /-- The possible keys at each depth of brackets, the innermost first. -/
  keys : List (Option PossibleKey) := [none]
  /-- Whether a key may start here. -/
  allowKey : Bool := true

namespace Lexer

/-- Whether brackets are open. -/
def inFlow (l : Lexer) : Bool := 1 < l.keys.length

def push (l : Lexer) (t : Token) : Lexer := { l with tokens := t :: l.tokens }

/-- Puts a token at a place among those read. -/
def insert (l : Lexer) (place : Nat) (t : Token) : Lexer :=
  let later := l.tokens.length - place
  { l with tokens := l.tokens.take later ++ t :: l.tokens.drop later }

/-- The greatest distance between the start of a key and its colon. -/
def maxKeyLength : Nat := 1024

/-- A possible key, unless the cursor has left its line or gone too far. -/
def current (c : Cursor) : Option PossibleKey → Except Fault (Option PossibleKey)
  | none => .ok none
  | some k =>
    if k.line = c.line && c.index ≤ k.index + maxKeyLength then .ok (some k)
    else if k.required then .error .malformed
    else .ok none

/-- Gives up the possible keys that the cursor has left behind. -/
def dropStale (l : Lexer) : Except Fault Lexer := do
  return { l with keys := ← l.keys.mapM (current l.cursor) }

/-- Gives up the possible key in these brackets. -/
def dropKey (l : Lexer) : Except Fault Lexer :=
  match l.keys with
  | some k :: keys => if k.required then .error .malformed else .ok { l with keys := none :: keys }
  | _ => .ok l

/-- Keeps in mind that the next token may be a key. -/
def saveKey (l : Lexer) : Except Fault Lexer := do
  if !l.allowKey then return l
  let l ← l.dropKey
  let c := l.cursor
  let required := !l.inFlow && l.indent = c.column
  let key : PossibleKey := ⟨l.tokens.length, required, c.index, c.line, c.column⟩
  return { l with keys := some key :: l.keys.drop 1 }

/-- Closes the block collections further in than a column; brackets keep them open. -/
def unwind (column : Int) : List Int → Lexer → Lexer
  | [], l => l
  | out :: outer, l =>
    if l.inFlow || l.indent ≤ column then l
    else unwind column outer { l with tokens := .blockEnd :: l.tokens, indent := out, outer := outer }

def unwindTo (l : Lexer) (column : Int) : Lexer := unwind column l.outer l

/-- Opens a block collection at a column, if it is further in than the one around it. The mark of its
start goes to a place among the tokens. -/
def openBlock (l : Lexer) (column place : Nat) (start : Token) : Lexer :=
  if l.indent < column then
    { l.insert place start with outer := l.indent :: l.outer, indent := column }
  else l

/-! ## Single tokens -/

/-- Goes on to the next token: past spaces, comments and line ends. -/
def skipToToken : Nat → Lexer → Lexer
  | 0, l => l
  | fuel + 1, l =>
    let c := l.cursor.skipSpaces.skipComment
    match c.lineBreak? with
    | none => { l with cursor := c }
    | some (_, c) => skipToToken fuel { l with cursor := c, allowKey := l.allowKey || !l.inFlow }

/-- A mark of some characters, after which a key may start or not. -/
def mark (l : Lexer) (width : Nat) (allowKey : Bool) (t : Token) : Lexer :=
  { l.push t with cursor := l.cursor.skip width, allowKey := allowKey }

/-- A token that may be a key, with the cursor after it. -/
def part (l : Lexer) (t : Token) (c : Cursor) : Lexer :=
  { l.push t with cursor := c, allowKey := false }

/-- Lines of a stream that are outside of all collections. -/
def leaveAll (l : Lexer) : Except Fault Lexer := (l.unwindTo (-1)).dropKey

def readDirective (l : Lexer) : Except Fault Lexer := do
  let l ← l.leaveAll
  let (d, c) ← directiveToken l.cursor.next
  return l.part (.directive d) c

def readDocumentMark (l : Lexer) (t : Token) : Except Fault Lexer := do
  return (← l.leaveAll).mark 3 false t

def openBracket (l : Lexer) (t : Token) : Except Fault Lexer := do
  let l ← l.saveKey
  return { l with keys := none :: l.keys }.mark 1 true t

/-- Without an opening bracket before it a closing one is no token of any document. -/
def closeBracket (l : Lexer) (t : Token) : Except Fault Lexer := do
  if !l.inFlow then throw .malformed
  let l ← l.dropKey
  return { l with keys := l.keys.drop 1 }.mark 1 false t

def readFlowEntry (l : Lexer) : Except Fault Lexer := do
  return (← l.dropKey).mark 1 true .flowEntry

/-- The mark of an entry or a key in a block, which opens a collection if it is further in. -/
def readBlockMark (l : Lexer) (start t : Token) : Except Fault Lexer := do
  if l.inFlow then return (← l.dropKey).mark 1 (t = .blockEntry) t
  if !l.allowKey then throw .malformed
  let l := l.openBlock l.cursor.column l.tokens.length start
  return (← l.dropKey).mark 1 true t

/-- A colon: the value of the possible key before it, or of a key that is marked or empty. -/
def readValue (l : Lexer) : Except Fault Lexer := do
  match l.keys with
  | some k :: keys =>
    let l := { l with keys := none :: keys }.insert k.place .key
    let l := if l.inFlow then l else l.openBlock k.column k.place .blockMappingStart
    return l.mark 1 false .value
  | _ =>
    if l.inFlow then return (← l.dropKey).mark 1 false .value
    if !l.allowKey then throw .malformed
    let l := l.openBlock l.cursor.column l.tokens.length .blockMappingStart
    return (← l.dropKey).mark 1 true .value

def readAlias (l : Lexer) : Except Fault Lexer := do
  let l ← l.saveKey
  let (name, c) ← anchorName l.cursor.next
  return l.part (.alias name) c

def readAnchor (l : Lexer) : Except Fault Lexer := do
  let l ← l.saveKey
  let (name, c) ← anchorName l.cursor.next
  return l.part (.anchor name) c

def readTag (l : Lexer) : Except Fault Lexer := do
  let l ← l.saveKey
  let (t, c) ← tagToken l.cursor
  return l.part t c

def readBlockScalar (l : Lexer) (folded : Bool) : Except Fault Lexer := do
  let l ← l.dropKey
  let (text, c) ← blockScalar folded l.indent l.cursor.next
  return { l.push (.scalar false (Text.ofChars text)) with cursor := c, allowKey := true }

def readQuoted (l : Lexer) : Except Fault Lexer := do
  let l ← l.saveKey
  let (text, c) ← quotedScalar l.cursor
  return l.part (.scalar false text) c

def readPlain (l : Lexer) : Except Fault Lexer := do
  let l ← l.saveKey
  let (text, c, fresh) := plainScalar l.inFlow (l.indent + 1) l.cursor
  return { l.push (.scalar true (Text.ofChars text)) with cursor := c, allowKey := fresh }

/-- Whether a plain scalar starts with one character before another. -/
def startsPlain (inFlow : Bool) (c : Char) (next : Option Char) : Bool :=
  !(atGap (some c) || "-?:,[]\x7b\x7d#&*!|>'\"%@\x60".toList.contains c)
    || (!atGap next && (c = '-' || (!inFlow && (c = '?' || c = ':'))))

/-- Reads the token that starts with a character at the cursor. -/
def readToken (l : Lexer) (ch : Char) : Except Fault Lexer :=
  let c := l.cursor
  let next := c.ahead 1
  let marked := l.inFlow || atGap next
  if ch = '%' && c.column = 0 then l.readDirective
  else if c.column = 0 && c.atMark '-' then l.readDocumentMark .documentStart
  else if c.column = 0 && c.atMark '.' then l.readDocumentMark .documentEnd
  else if ch = '[' then l.openBracket .flowSequenceStart
  else if ch = '\x7b' then l.openBracket .flowMappingStart
  else if ch = ']' then l.closeBracket .flowSequenceEnd
  else if ch = '\x7d' then l.closeBracket .flowMappingEnd
  else if ch = ',' then l.readFlowEntry
  else if ch = '-' && atGap next then l.readBlockMark .blockSequenceStart .blockEntry
  else if ch = '?' && marked then l.readBlockMark .blockMappingStart .key
  else if ch = ':' && marked then l.readValue
  else if ch = '*' then l.readAlias
  else if ch = '&' then l.readAnchor
  else if ch = '!' then l.readTag
  else if ch = '|' && !l.inFlow then l.readBlockScalar false
  else if ch = '>' && !l.inFlow then l.readBlockScalar true
  else if ch = '\'' || ch = '"' then l.readQuoted
  else if startsPlain l.inFlow ch next then l.readPlain
  else .error .malformed

/-- Reads one token with the marks that go before it. The flag tells whether there was one before the
end of the text. -/
def step (l : Lexer) : Except Fault (Lexer × Bool) := do
  let l ← (skipToToken (l.cursor.rest.length + 1) l).dropStale
  let l := l.unwindTo l.cursor.column
  match l.cursor.peek with
  | some ch => return (← l.readToken ch, true)
  | none => return (← l.leaveAll, false)

/-- The tokens that are settled: those before the first one that may still turn out to be a key. -/
def settled (l : Lexer) : Except Fault (List Token) := do
  let l ← l.dropStale
  let places := l.keys.filterMap fun k => k.map (·.place)
  return l.tokens.reverse.take (places.foldl min l.tokens.length)

/-- Reads tokens to the end of the text. A fault leaves the tokens that are settled before it. -/
def run : Nat → Lexer → List Token × Option Fault
  | 0, _ => ([], some .malformed)
  | fuel + 1, l =>
    match l.step with
    | .ok (l, true) => run fuel l
    | .ok (l, false) => (l.tokens.reverse, none)
    | .error fault =>
      match l.settled with
      | .ok ts => (ts, some fault)
      | .error fault => ([], some fault)

end Lexer

/-- The tokens of a text, or those that are settled before the first fault. A byte order mark at the
start counts for nothing. -/
def tokens (text : List Char) : List Token × Option Fault :=
  let start : Cursor := ⟨text, 0, 0, 0⟩
  let start := if start.peek = some '\ufeff' then start.next else start
  Lexer.run (text.length + 2) { cursor := start }

end TransitionAudit.Yaml
