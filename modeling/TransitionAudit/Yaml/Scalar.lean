import TransitionAudit.Yaml.Cursor

/-!
# Scalars in a YAML text

The text of a scalar in each of its styles: plain, in single or double quotes, and as a literal or
folded block. Line breaks inside a scalar are folded: one becomes a space, more keep all but the
first. Each reader gives the text and the place after it.
-/

namespace TransitionAudit.Yaml

/-- A text read, with the place after it. -/
abbrev Scan := Except Fault (Text × Cursor)

/-- A line break and those after it as they fold into a text. -/
def fold (first : Char) (others : List Char) : List Char :=
  if first ≠ '\n' then first :: others else if others.isEmpty then [' '] else others

/-! ## Plain scalars -/

/-- The characters that end a plain scalar inside brackets. -/
def endsFlowPlain (c : Char) : Bool := [',', '?', '[', ']', '\x7b', '\x7d'].contains c

/-- Whether a colon with this after it ends a plain scalar. -/
def endsAfterColon (flow : Bool) (next : Option Char) : Bool :=
  atGap next || (flow && next.any fun c => [',', '[', ']', '\x7b', '\x7d'].contains c)

/-- The part of a plain scalar that goes on without a gap. -/
def plainRun (flow : Bool) : List Char → List Char
  | [] => []
  | c :: rest =>
    if atGap (some c) || (c = ':' && endsAfterColon flow rest.head?) || (flow && endsFlowPlain c)
    then []
    else c :: plainRun flow rest

/-- The line breaks that come next, with the spaces between them left out; `none` as soon as a
document mark starts a line. -/
def blankLines : Nat → Cursor → Option (List Char) × Cursor
  | 0, c => (some [], c)
  | fuel + 1, c =>
    if c.peek = some ' ' then blankLines fuel c.next
    else match c.lineBreak? with
      | none => (some [], c)
      | some (br, c) =>
        if c.atDocumentMark then (none, c)
        else
          let (more, c) := blankLines fuel c
          (more.map (br :: ·), c)

/-- The gap after a part of a plain scalar, as it folds into the text, and whether it goes over a line
break. A gap that a document mark follows is empty. -/
def plainGap (c : Cursor) : List Char × Cursor × Bool :=
  let (spaces, c) := c.span (· = ' ')
  match c.lineBreak? with
  | none => (spaces, c, false)
  | some (br, c) =>
    if c.atDocumentMark then ([], c, true)
    else
      match blankLines c.rest.length c with
      | (none, c) => ([], c, true)
      | (some others, c) => (fold br others, c, true)

/-- A plain scalar: its parts and the gaps between them. A line further out than `indent` ends it,
unless brackets are open. The flag tells whether the place after it is the first on a line. -/
def plainParts (flow : Bool) (indent : Int) (gap : List Char) (fresh : Bool) :
    Nat → Cursor → List Char × Cursor × Bool
  | 0, c => ([], c, fresh)
  | fuel + 1, c =>
    match plainRun flow c.rest with
    | [] => ([], c, fresh)
    | run =>
      let (gap', c, fresh) := plainGap (c.skip run.length)
      if gap'.isEmpty || c.peek = some '#' || (!flow && (c.column : Int) < indent) then
        (gap ++ run, c, fresh)
      else
        let (more, c, fresh) := plainParts flow indent gap' fresh fuel c
        (gap ++ run ++ more, c, fresh)

def plainScalar (flow : Bool) (indent : Int) (c : Cursor) : List Char × Cursor × Bool :=
  plainParts flow indent [] false c.rest.length c

/-! ## Quoted scalars -/

/-- The character an escape with one letter stands for. -/
def escaped? : Char → Option Char
  | '0' => some '\x00'
  | 'a' => some '\x07'
  | 'b' => some '\x08'
  | 't' | '\t' => some '\t'
  | 'n' => some '\n'
  | 'v' => some '\x0b'
  | 'f' => some '\x0c'
  | 'r' => some '\r'
  | 'e' => some '\x1b'
  | ' ' => some ' '
  | '"' => some '"'
  | '\\' => some '\\'
  | '/' => some '/'
  | 'N' => some '\x85'
  | '_' => some '\xa0'
  | 'L' => some '\u2028'
  | 'P' => some '\u2029'
  | _ => none

/-- How many hexadecimal digits an escape has. -/
def escapeWidth? : Char → Option Nat
  | 'x' => some 2
  | 'u' => some 4
  | 'U' => some 8
  | _ => none

/-- The code point of a number. -/
def pointOf (code : Nat) : Except Fault CodePoint :=
  match CodePoint.ofNumber? code with
  | some p => .ok p
  | none => .error (.noCharacter code)

/-- The line breaks that come next, with the blanks around them left out. A document mark may not
start a line. -/
def quotedBreaks : Nat → Cursor → Except Fault (List Char × Cursor)
  | 0, c => .ok ([], c)
  | fuel + 1, c =>
    if c.atDocumentMark then .error .malformed
    else
      let c := (c.span fun ch => ch = ' ' || ch = '\t').2
      match c.lineBreak? with
      | none => .ok ([], c)
      | some (br, c) => (quotedBreaks fuel c).map fun (more, c) => (br :: more, c)

/-- The blanks that come next, kept inside a line and folded with line breaks. -/
def quotedGap (c : Cursor) : Scan :=
  let (blanks, c) := c.span fun ch => ch = ' ' || ch = '\t'
  match c.peek, c.lineBreak? with
  | none, _ => .error .malformed
  | _, none => .ok (Text.ofChars blanks, c)
  | _, some (br, c) =>
    (quotedBreaks (c.rest.length + 1) c).map fun (others, c) => (Text.ofChars (fold br others), c)

/-- An escape after its backslash; one before a line break takes the break away. -/
def quotedEscape (c : Cursor) : Scan :=
  match c.peek with
  | none => .error .malformed
  | some ch =>
    match escaped? ch, escapeWidth? ch with
    | some x, _ => .ok ([.char x], c.next)
    | none, some width =>
      let digits := c.next.rest.take width
      if digits.length < width || !digits.all isHexDigit then .error .malformed
      else (pointOf (hexNumber digits)).map fun p => ([p], c.skip (width + 1))
    | none, none =>
      match c.lineBreak? with
      | some (_, c) =>
        (quotedBreaks (c.rest.length + 1) c).map fun (breaks, c) => (Text.ofChars breaks, c)
      | none => .error .malformed

/-- The rest of a quoted scalar up to its closing quote. -/
def quotedRest (double : Bool) : Nat → Cursor → Scan
  | 0, _ => .error .malformed
  | fuel + 1, c =>
    let andThen (r : Scan) : Scan := do
      let (text, c) ← r
      let (more, c) ← quotedRest double fuel c
      return (text ++ more, c)
    match c.peek with
    | none => .error .malformed
    | some ch =>
      if ch = '\'' && !double then
        if c.ahead 1 = some '\'' then andThen (.ok (['\''], c.skip 2)) else .ok ([], c.next)
      else if ch = '"' && double then .ok ([], c.next)
      else if ch = '\\' && double then andThen (quotedEscape c.next)
      else if atGap (some ch) then andThen (quotedGap c)
      else andThen (.ok ([ch], c.next))

/-- A scalar in quotes, with the place at its opening quote. -/
def quotedScalar (c : Cursor) : Scan :=
  quotedRest (c.peek = some '"') (c.rest.length + 1) c.next

/-! ## Block scalars -/

/-- What becomes of the line breaks at the end of a block. -/
inductive Chomping
  | strip
  | clip
  | keep
  deriving DecidableEq

structure BlockHeader where
  chomping : Chomping
  /-- By how much the block is indented, if the header says so. -/
  indentation : Option Nat

def chomping? : Option Char → Option Chomping
  | some '+' => some .keep
  | some '-' => some .strip
  | _ => none

/-- A digit from one to nine, if a digit comes next. -/
def indentation? (c : Cursor) : Except Fault (Option Nat × Cursor) :=
  match c.peek with
  | some '0' => .error .malformed
  | some ch => if ch.isDigit then .ok (some (ch.toNat - 48), c.next) else .ok (none, c)
  | none => .ok (none, c)

/-- What stands after the mark of a block, in either order. -/
def blockHeader (c : Cursor) : Except Fault (BlockHeader × Cursor) := do
  let (header, c) ← match chomping? c.peek with
    | some chomping => do
      let (indentation, c) ← indentation? c.next
      pure (BlockHeader.mk chomping indentation, c)
    | none => do
      let (indentation, c) ← indentation? c
      match indentation, chomping? c.peek with
      | some _, some chomping => pure (BlockHeader.mk chomping indentation, c.next)
      | _, _ => pure (BlockHeader.mk .clip indentation, c)
  if atSpace c.peek then return (header, c) else throw .malformed

/-- The empty lines before a block whose indentation is not given: the breaks, the greatest column
reached, and the place after them. -/
def leadingLines : Nat → Nat → Cursor → List Char × Nat × Cursor
  | 0, deepest, c => ([], deepest, c)
  | fuel + 1, deepest, c =>
    if c.peek = some ' ' then leadingLines fuel (max deepest c.next.column) c.next
    else match c.lineBreak? with
      | none => ([], deepest, c)
      | some (br, c) =>
        let (more, deepest, c) := leadingLines fuel deepest c
        (br :: more, deepest, c)

/-- The place after the spaces that come next, but not beyond a column. -/
def skipIndent (indent : Nat) (c : Cursor) : Cursor :=
  c.skip (min (c.rest.takeWhile (· = ' ')).length (indent - c.column))

/-- The line breaks that come next, with the spaces of the indentation left out. -/
def blockBreaks (indent : Nat) : Nat → Cursor → List Char × Cursor
  | 0, c => ([], c)
  | fuel + 1, c =>
    let c := skipIndent indent c
    match c.lineBreak? with
    | none => ([], c)
    | some (br, c) =>
      let (more, c) := blockBreaks indent fuel c
      (br :: more, c)

def atBlank (c : Cursor) : Bool := c.peek = some ' ' || c.peek = some '\t'

/-- The break between two lines of a block and the empty lines after it. In a folded block the break
between two lines that do not start with a blank becomes a space, or goes if empty lines follow. -/
def blockFold (folds : Bool) (br : List Char) (breaks : List Char) : List Char :=
  if folds && br = ['\n'] then (if breaks.isEmpty then [' '] else breaks) else br ++ breaks

/-- The lines of a block from the cursor on, the first of which it stands at. -/
def blockLines (folded : Bool) (chomping : Chomping) (indent : Nat) : Nat → Cursor → List Char × Cursor
  | 0, c => ([], c)
  | fuel + 1, c =>
    let plainStart := !atBlank c
    let (line, c) := c.span fun ch => !isBreak ch
    let (br, c) := match c.lineBreak? with
      | some (br, c) => ([br], c)
      | none => ([], c)
    let (breaks, c) := blockBreaks indent (c.rest.length + 1) c
    if c.column = indent && c.peek.isSome then
      let between := blockFold (folded && plainStart && !atBlank c) br breaks
      let (more, c) := blockLines folded chomping indent fuel c
      (line ++ between ++ more, c)
    else
      let tail := match chomping with
        | .strip => []
        | .clip => br
        | .keep => br ++ breaks
      (line ++ tail, c)

/-- A block scalar after its mark; `indent` is that of the collection it stands in. -/
def blockScalar (folded : Bool) (indent : Int) (c : Cursor) : Except Fault (List Char × Cursor) := do
  let (header, c) ← blockHeader c
  let c ← c.nextLine
  let least := max (indent + 1) 1 |>.toNat
  let (breaks, width, c) := match header.indentation with
    | some n =>
      let width := least + n - 1
      let (breaks, c) := blockBreaks width (c.rest.length + 1) c
      (breaks, width, c)
    | none =>
      let (breaks, deepest, c) := leadingLines c.rest.length 0 c
      (breaks, max least deepest, c)
  if c.column = width && c.peek.isSome then
    let (text, c) := blockLines folded header.chomping width (c.rest.length + 1) c
    return (breaks ++ text, c)
  else
    return (if header.chomping = .keep then breaks else [], c)

end TransitionAudit.Yaml
