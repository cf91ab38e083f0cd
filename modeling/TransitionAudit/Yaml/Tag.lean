import TransitionAudit.Yaml.Cursor

/-!
# Tags

What a tag makes of a node, and the tag a plain scalar has by its form: the words for null and truth,
integers in four bases and in base sixty, floating-point numbers, dates and moments.
-/

namespace TransitionAudit.Yaml

inductive Tag
  | null
  | bool
  | int
  | float
  | binary
  | timestamp
  | text
  | sequence
  | mapping
  | set
  | orderedMap
  | pairs
  /-- The key `<<`, whose mappings are merged into the one it stands in. -/
  | merge
  /-- The key `=`, whose value stands for the mapping where a scalar is wanted. -/
  | value
  | unknown
  deriving DecidableEq, Repr

namespace Tag

/-- What the names of the standard tags start with. -/
def standard : Text := "tag:yaml.org,2002:"

def names : List (Text × Tag) :=
  [("null", .null), ("bool", .bool), ("int", .int), ("float", .float), ("binary", .binary),
   ("timestamp", .timestamp), ("str", .text), ("seq", .sequence), ("map", .mapping), ("set", .set),
   ("omap", .orderedMap), ("pairs", .pairs), ("merge", .merge), ("value", .value)]

def ofName (name : Text) : Tag :=
  ((names.find? fun (n, _) => standard ++ n == name).map (·.2)).getD .unknown

/-! ## Words -/

def nullWords : List Text := ["", "~", "null", "Null", "NULL"]

def trueWords : List Text := ["yes", "Yes", "YES", "true", "True", "TRUE", "on", "On", "ON"]

def falseWords : List Text := ["no", "No", "NO", "false", "False", "FALSE", "off", "Off", "OFF"]

/-! ## Numbers -/

/-- The text after a sign, if there is one. -/
def unsigned : List Char → List Char
  | '+' :: rest | '-' :: rest => rest
  | s => s

/-- One or more characters of a kind, or underscores. -/
def isRun (kind : Char → Bool) (s : List Char) : Bool :=
  !s.isEmpty && s.all fun c => kind c || c = '_'

/-- A digit with digits and underscores after it. -/
def isGrouped : List Char → Bool
  | c :: rest => c.isDigit && rest.all fun c => c.isDigit || c = '_'
  | [] => false

/-- A number below sixty in one or two digits. -/
def isSixtieth : List Char → Bool
  | [a] => a.isDigit
  | [a, b] => '0' ≤ a && a ≤ '5' && b.isDigit
  | _ => false

/-- A number in base ten or, with colons between its places, in base sixty. -/
def isPlaces (s : List Char) : Bool :=
  match s.splitOn ':' with
  | head :: rest => isGrouped head && rest.all isSixtieth
  | [] => false

def isInteger (s : List Char) : Bool :=
  match unsigned s with
  | ['0'] => true
  | '0' :: 'b' :: rest => isRun (fun c => c = '0' || c = '1') rest
  | '0' :: 'x' :: rest => isRun isHexDigit rest
  | '0' :: rest => isRun (fun c => '0' ≤ c && c ≤ '7') rest
  | s => isPlaces s

/-- An exponent with its sign, or nothing. -/
def isExponent : List Char → Bool
  | [] => true
  | e :: sign :: d :: rest =>
    (e = 'e' || e = 'E') && (sign = '+' || sign = '-') && (d :: rest).all Char.isDigit
  | _ => false

/-- What stands after the point of a floating-point number. -/
def isFraction (exponent : Bool) (s : List Char) : Bool :=
  let rest := s.dropWhile fun c => c.isDigit || c = '_'
  rest.isEmpty || (exponent && isExponent rest)

def isFloat (s : List Char) : Bool :=
  if [".nan", ".NaN", ".NAN"].any fun w => w.toList = s then true
  else if [".inf", ".Inf", ".INF"].any fun w => w.toList = unsigned s then true
  else match s with
    | '.' :: d :: rest => d.isDigit && isFraction true rest
    | _ =>
      match (unsigned s).span (· ≠ '.') with
      | (whole, _ :: fraction) => isPlaces whole && isFraction (isGrouped whole) fraction
      | (_, []) => false

/-! ## Dates and moments -/

/-- A time of day as it is written. -/
structure TimeParts where
  hour : Nat
  minute : Nat
  second : Nat
  fraction : List Char
  /-- The offset from universal time in minutes, if one is written. -/
  offset : Option Int

/-- A date as it is written, with a time of day if there is one. -/
structure MomentParts where
  year : Nat
  month : Nat
  day : Nat
  /-- Whether month and day have two digits each. -/
  full : Bool
  time : Option TimeParts

/-- A number of exactly some digits, and the rest. -/
def exactDigits (width : Nat) (s : List Char) : Option (Nat × List Char) :=
  let digits := s.take width
  if digits.length = width && digits.all Char.isDigit then
    some (Nat.ofDigitChars 10 digits 0, s.drop width)
  else none

/-- A number of one or two digits, whether it has two, and the rest. -/
def shortNumber (s : List Char) : Option (Nat × Bool × List Char) :=
  match exactDigits 2 s with
  | some (n, rest) => some (n, true, rest)
  | none => (exactDigits 1 s).map fun (n, rest) => (n, false, rest)

/-- The rest after a character. -/
def after (c : Char) : List Char → Option (List Char)
  | d :: rest => if c = d then some rest else none
  | [] => none

def isTabOrSpace (c : Char) : Bool := c = ' ' || c = '\t'

/-- An offset from universal time up to the end of the text. -/
def offsetParts (s : List Char) : Option (Option Int) :=
  match s with
  | [] => some none
  | _ =>
    match s.dropWhile isTabOrSpace with
    | ['Z'] => some (some 0)
    | sign :: rest =>
      if sign = '+' || sign = '-' then do
        let (hour, _, rest) ← shortNumber rest
        let minute ← match rest with
          | [] => some 0
          | _ => do
            let (n, rest) ← exactDigits 2 (← after ':' rest)
            if rest.isEmpty then some n else none
        let span : Int := hour * 60 + minute
        return some (if sign = '-' then -span else span)
      else none
    | [] => none

def timeParts (s : List Char) : Option TimeParts := do
  let (hour, _, rest) ← shortNumber s
  let (minute, rest) ← exactDigits 2 (← after ':' rest)
  let (second, rest) ← exactDigits 2 (← after ':' rest)
  let (fraction, rest) := match rest with
    | '.' :: rest => rest.span Char.isDigit
    | rest => ([], rest)
  return ⟨hour, minute, second, fraction, ← offsetParts rest⟩

/-- What stands between a date and a time of day: one letter or some blanks. -/
def afterSeparator : List Char → Option (List Char)
  | 'T' :: rest | 't' :: rest => some rest
  | c :: rest => if isTabOrSpace c then some (rest.dropWhile isTabOrSpace) else none
  | [] => none

def momentParts (s : List Char) : Option MomentParts := do
  let (year, rest) ← exactDigits 4 s
  let (month, two, rest) ← shortNumber (← after '-' rest)
  let (day, two', rest) ← shortNumber (← after '-' rest)
  let time ← match rest with
    | [] => some none
    | _ => some <$> timeParts (← afterSeparator rest)
  return ⟨year, month, day, two && two', time⟩

/-- A date on its own has to have all of its digits. -/
def isTimestamp (s : List Char) : Bool :=
  (momentParts s).any fun p => p.full || p.time.isSome

/-! ## The tag of a plain scalar -/

/-- Words that are kept for other uses. -/
def reservedWords : List Text := ["!", "&", "*"]

/-- What counts of a text for its form: one line break at the end does not, unless it is all. -/
def formOf (t : Text) : List Char :=
  match t.toChars.reverse with
  | '\n' :: c :: back => (c :: back).reverse
  | _ => t.toChars

/-- The tag of a scalar that has none, by its form. -/
def ofForm (t : Text) : Tag :=
  let cs := formOf t
  let word := Text.ofChars cs
  if nullWords.contains word then .null
  else if trueWords.contains word || falseWords.contains word then .bool
  else if isFloat cs then .float
  else if isInteger cs then .int
  else if word = "<<" then .merge
  else if isTimestamp cs then .timestamp
  else if word = "=" then .value
  else if reservedWords.contains word then .unknown
  else .text

end Tag

end TransitionAudit.Yaml
