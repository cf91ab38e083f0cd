import TransitionAudit.Text.Blank
import TransitionAudit.Text.Digit
import TransitionAudit.Text.Quoted

/-!
# Numerals

Numbers written in base ten, and integers read from a text with blanks around them, a sign, digits
of any script and single underscores between digits. A longer numeral than `maxDigits` is refused.
-/

namespace TransitionAudit.Numeral

/-! ## Writing -/

def nat (n : Nat) : Text := Text.ofChars (Nat.toDigits 10 n)

def int : Int → Text
  | .ofNat n => nat n
  | .negSucc n => "-" ++ nat (n + 1)

/-- A number in at least `width` digits, with zeros in front. -/
def padded (width n : Nat) : Text :=
  let ds := Nat.toDigits 10 n
  Text.ofChars (List.replicate (width - ds.length) '0' ++ ds)

/-! ## Reading -/

/-- The greatest number of digits an integer may be written with. -/
def maxDigits : Nat := 4300

/-- Why a text is not read as an integer. -/
inductive Fault
  /-- The text is not a numeral. -/
  | notNumeral
  /-- The numeral has too many digits. -/
  | tooLong (digits : Nat)
  deriving DecidableEq, Repr

/-- The message about an integer that is too long, with what is known of its length. -/
def lengthMessage (known : Text) : Text :=
  "Exceeds the limit (" ++ nat maxDigits ++ " digits) for integer string conversion" ++ known ++
    "; use sys.set_int_max_str_digits() to increase the limit"

/-- The message about a numeral that is too long to be read. -/
def tooLongMessage (digits : Nat) : Text := lengthMessage (": value has " ++ nat digits ++ " digits")

/-- The message about a number that is too long to be written. -/
def unwritableMessage : Text := lengthMessage ""

/-- Whether a number has no more digits than are written. -/
def isWritable (i : Int) : Bool := i.natAbs < Nat.pow 10 maxDigits

/-- The message about a text that is no numeral in a base, of which it shows the start. -/
def notNumeralMessage (base : Nat) (text : Text) : Text :=
  "invalid literal for int() with base " ++ nat base ++ ": " ++ (Text.quote text).take 200

/-- A blank next to a numeral: a separator U+001C to U+001F does not count here. -/
def isMargin (c : Char) : Bool := Text.isBlank c && !(0x1c ≤ c.toNat && c.toNat ≤ 0x1f)

/-- Digits with single underscores between them, and what follows. Neither the text nor the rest
after a digit may start with two underscores, and an underscore needs a digit after it. -/
def digitRun : List Char → Option (List Nat × List Char)
  | '_' :: _ => none
  | c :: '_' :: rest =>
    match Text.digit? c with
    | none => some ([], c :: '_' :: rest)
    | some d =>
      match digitRun rest with
      | none | some ([], _) => none
      | some (ds, rest) => some (d :: ds, rest)
  | c :: rest =>
    match Text.digit? c with
    | none => some ([], c :: rest)
    | some d => (digitRun rest).map fun (ds, rest) => (d :: ds, rest)
  | [] => some ([], [])

/-- The number that digits write in base ten. -/
def ofDigits (ds : List Nat) : Nat := ds.foldl (fun n d => n * 10 + d) 0

/-- Reads an integer. -/
def readInt (t : Text) : Except Fault Int := do
  let body := t.toChars.dropWhile isMargin
  let (negative, body) := match body with
    | '-' :: rest => (true, rest)
    | '+' :: rest => (false, rest)
    | _ => (false, body)
  match digitRun body with
  | none | some ([], _) => .error .notNumeral
  | some (ds, rest) =>
    if maxDigits < ds.length then .error (.tooLong ds.length)
    else if rest.all isMargin then .ok (if negative then -(ofDigits ds : Int) else ofDigits ds)
    else .error .notNumeral

end TransitionAudit.Numeral
