import TransitionAudit.Text.Quoted

/-!
# UTF-8

Decoding of UTF-8, with the text read up to the first fault and the fault's kind. The decoder keeps
the octets still owed by the character it is in and the range the next octet has to lie in. A file that is read
as a stream is decoded in chunks, so that a fault comes to light only after the chunks before it. Every text
without surrogates can be written in UTF-8.
-/

namespace TransitionAudit.Text.Utf8

/-! ## Decoding -/

/-- Why octets are not UTF-8. -/
inductive Fault
  /-- An octet that starts no character. -/
  | badStart
  /-- An octet that cannot continue the character before it. -/
  | badContinuation
  /-- The octets end inside a character. -/
  | truncated
  deriving DecidableEq, Repr

def Fault.message : Fault → Text
  | .badStart => "invalid start byte"
  | .badContinuation => "invalid continuation byte"
  | .truncated => "unexpected end of data"

/-- A character of which some octets have been read. -/
structure Pending where
  /-- How many octets are owed. -/
  owed : Nat
  /-- The bits read so far. -/
  bits : Nat
  /-- The least octet that may come next. -/
  low : Nat
  /-- The greatest octet that may come next. -/
  high : Nat

/-- A first octet: a whole character or the start of a longer one. -/
def start? (b : Nat) : Option Pending :=
  if b ≤ 0x7f then some ⟨0, b, 0, 0⟩
  else if 0xc2 ≤ b && b ≤ 0xdf then some ⟨1, b % 32, 0x80, 0xbf⟩
  else if b = 0xe0 then some ⟨2, 0, 0xa0, 0xbf⟩
  else if b = 0xed then some ⟨2, 13, 0x80, 0x9f⟩
  else if 0xe1 ≤ b && b ≤ 0xef then some ⟨2, b % 16, 0x80, 0xbf⟩
  else if b = 0xf0 then some ⟨3, 0, 0x90, 0xbf⟩
  else if 0xf1 ≤ b && b ≤ 0xf3 then some ⟨3, b % 8, 0x80, 0xbf⟩
  else if b = 0xf4 then some ⟨3, 4, 0x80, 0x8f⟩
  else none

/-- The character with one more octet, or the next character if nothing was owed. -/
def Pending.accept (p : Pending) (b : Nat) : Except Fault Pending :=
  if p.owed = 0 then
    match start? b with
    | some q => .ok q
    | none => .error .badStart
  else if p.low ≤ b && b ≤ p.high then .ok ⟨p.owed - 1, p.bits * 64 + b % 64, 0x80, 0xbf⟩
  else .error .badContinuation

/-- The text read up to a fault, and the fault if there is one. -/
structure Decoded where
  text : List Char
  fault : Option Fault

/-- Decodes what follows the octets read into `p`; a character is written down once it is whole. -/
def decodeFrom (p : Pending) : List UInt8 → Decoded
  | [] => ⟨[], if p.owed = 0 then none else some .truncated⟩
  | b :: rest =>
    match p.accept b.toNat with
    | .error fault => ⟨[], some fault⟩
    | .ok q =>
      let d := decodeFrom q rest
      if q.owed = 0 then ⟨Char.ofNat q.bits :: d.text, d.fault⟩ else d

def decode (octets : List UInt8) : Decoded := decodeFrom ⟨0, 0, 0, 0⟩ octets

/-- The greatest number of octets that a stream decodes at a time. -/
def chunkSize : Nat := 8192

/-- Whether an octet makes a surrogate of the character it cannot continue. -/
def Pending.isSurrogateWith (p : Pending) (b : Nat) : Bool :=
  p.owed = 2 && p.high = 0x9f && 0xa0 ≤ b && b ≤ 0xbf

/-- Decodes a stream chunk by chunk: `left` octets are still to come of the chunk that `held` has been read from,
the last character first. A fault takes the text of its chunk with it. Octets that end inside a character come to
light after the last chunk, and where a chunk ends inside a surrogate, that comes to light after this chunk. -/
def streamFrom (p : Pending) (left : Nat) (held : List Char) : List UInt8 → Decoded
  | [] => ⟨held.reverse, if p.owed = 0 then none else some .truncated⟩
  | b :: rest =>
    match p.accept b.toNat with
    | .error fault =>
      let ends := left ≤ 1 || rest.isEmpty
      ⟨if ends && p.isSurrogateWith b.toNat then held.reverse else [], some fault⟩
    | .ok q =>
      let held := if q.owed = 0 then Char.ofNat q.bits :: held else held
      if left ≤ 1 then
        let d := streamFrom q chunkSize [] rest
        ⟨held.reverse ++ d.text, d.fault⟩
      else streamFrom q (left - 1) held rest

/-- The text that a stream hands out before its first fault, and the fault. -/
def stream (octets : List UInt8) : Decoded := streamFrom ⟨0, 0, 0, 0⟩ chunkSize [] octets

/-- The text of octets that hold no fault. -/
def decode? (octets : List UInt8) : Except Fault (List Char) :=
  match decode octets with
  | ⟨text, none⟩ => .ok text
  | ⟨_, some fault⟩ => .error fault

/-! ## Encoding -/

def encodeChar (c : Char) : List UInt8 :=
  let n := c.toNat
  let tail (n : Nat) : UInt8 := .ofNat (0x80 + n % 64)
  if n < 0x80 then [.ofNat n]
  else if n < 0x800 then [.ofNat (0xc0 + n / 64), tail n]
  else if n < 0x10000 then [.ofNat (0xe0 + n / 4096), tail (n / 64), tail n]
  else [.ofNat (0xf0 + n / 262144), tail (n / 4096), tail (n / 64), tail n]

/-- Surrogates in a row, by the places of the first one and of what comes after the last one. -/
structure SurrogateFault where
  first : Fin 0x800
  start : Nat
  stop : Nat
  deriving DecidableEq, Repr

def SurrogateFault.message (f : SurrogateFault) : Text :=
  let head : Text := "'utf-8' codec can't encode character"
  let tail : Text := ": surrogates not allowed"
  let places : Text :=
    if f.stop = f.start + 1 then
      " " ++ quote [.surrogate f.first] ++ " in position " ++ ofChars (Nat.toDigits 10 f.start)
    else
      "s in position " ++ ofChars (Nat.toDigits 10 f.start) ++ "-" ++
        ofChars (Nat.toDigits 10 (f.stop - 1))
  head ++ places ++ tail

/-- The first surrogates of a text, the first code point being in place `index`. -/
def surrogates? (index : Nat) : Text → Option SurrogateFault
  | [] => none
  | .char _ :: rest => surrogates? (index + 1) rest
  | .surrogate n :: rest =>
    some ⟨n, index, index + 1 + (rest.takeWhile CodePoint.isSurrogate).length⟩

/-- The octets of a text. -/
def encode (t : Text) : Except SurrogateFault (List UInt8) :=
  match surrogates? 0 t with
  | some fault => .error fault
  | none => .ok (t.toChars.flatMap encodeChar)

/-- The octet that a surrogate stands for in the name of a file: the surrogates from U+DC80 to U+DCFF
stand for the octets that are not ASCII. -/
def nameOctet? (n : Fin 0x800) : Option UInt8 :=
  if 0x480 ≤ n.val && n.val ≤ 0x4ff then some (.ofNat (n.val - 0x400)) else none

/-- The octets of the name of a file, the first code point being in place `index`. -/
def encodeName (index : Nat) : Text → Except SurrogateFault (List UInt8)
  | [] => .ok []
  | .char c :: rest => (encodeName (index + 1) rest).map (encodeChar c ++ ·)
  | .surrogate n :: rest =>
    match nameOctet? n with
    | some b => (encodeName (index + 1) rest).map (b :: ·)
    | none => .error ⟨n, index, index + 1 + (rest.takeWhile CodePoint.isSurrogate).length⟩

end TransitionAudit.Text.Utf8
