import TransitionAudit.Number.Numeral

/-!
# Double-precision numbers

Binary floating-point numbers with 53 bits of precision, held exactly as a sign, a mantissa and a
power of two, so that rounding, reading and writing are integer arithmetic.
-/

namespace TransitionAudit

def twoTo (n : Nat) : Nat := Nat.pow 2 n

def tenTo (n : Nat) : Nat := Nat.pow 10 n

/-- A double-precision number. A finite one is `mantissa * 2 ^ exponent` with the mantissa below
`2 ^ 53`, and at least `2 ^ 52` unless the exponent is the least one, `-1074`. -/
inductive Double
  | nan
  | infinite (negative : Bool)
  | finite (negative : Bool) (mantissa : Nat) (exponent : Int)
  deriving DecidableEq, Repr, Inhabited

namespace Double

def zero (negative : Bool) : Double := .finite negative 0 (-1074)

/-! ## Rounding -/

/-- The integer nearest to `num / den`; a half goes to the even neighbour. -/
def roundDiv (num den : Nat) : Nat :=
  let q := num / den
  let r := num % den
  if den < 2 * r || (2 * r = den && q % 2 = 1) then q + 1 else q

/-- `num / den` over `2 ^ e`, as a quotient of naturals. -/
def scaled (num den : Nat) (e : Int) : Nat × Nat :=
  if 0 ≤ e then (num, den * twoTo e.toNat) else (num * twoTo (-e).toNat, den)

/-- The double nearest to `num / den`. -/
def ofRatio (negative : Bool) (num den : Nat) : Double :=
  if num = 0 then zero negative
  else
    let e : Int := max (num.log2 - den.log2 - 52) (-1074)
    let (n, d) := scaled num den e
    let e := if n / d < twoTo 52 && -1074 < e then e - 1 else e
    let (n, d) := scaled num den e
    let m := roundDiv n d
    let (m, e) := if m = twoTo 53 then (twoTo 52, e + 1) else (m, e)
    if 971 < e then .infinite negative else .finite negative m e

/-- The double nearest to `digits * 10 ^ exponent`. Far outside the range of doubles the power is
not computed. -/
def ofDecimal (negative : Bool) (digits : Nat) (exponent : Int) : Double :=
  let size : Int := (Nat.toDigits 10 digits).length + exponent
  if digits = 0 || size < -330 then zero negative
  else if 310 < size then .infinite negative
  else if 0 ≤ exponent then ofRatio negative (digits * tenTo exponent.toNat) 1
  else ofRatio negative digits (tenTo (-exponent).toNat)

/-! ## Exact values -/

/-- The absolute value of a finite double as a quotient. -/
def magnitude (mantissa : Nat) (exponent : Int) : Nat × Nat :=
  if 0 ≤ exponent then (mantissa * twoTo exponent.toNat, 1) else (mantissa, twoTo (-exponent).toNat)

/-- The integer part, for a finite double. -/
def trunc? : Double → Option Int
  | .finite negative m e =>
    let (n, d) := magnitude m e
    some (if negative then -((n / d : Nat) : Int) else (n / d : Nat))
  | _ => none

/-- The double nearest to a whole number, unless that is too large for one. -/
def ofNat? (n : Nat) : Option Double :=
  match ofRatio false n 1 with
  | .infinite _ => none
  | x => some x

/-! ## Arithmetic -/

def negate : Double → Double
  | .nan => .nan
  | .infinite s => .infinite (!s)
  | .finite s m e => .finite (!s) m e

/-- The sum of two doubles, rounded. A sum of nothing is negative only if both parts are. -/
def add : Double → Double → Double
  | .finite s m e, .finite s' m' e' =>
    let (n, d) := magnitude m e
    let (n', d') := magnitude m' e'
    let signed (s : Bool) (n : Nat) : Int := if s then -n else n
    let sum := signed s (n * d') + signed s' (n' * d)
    if sum = 0 then zero (s && s') else ofRatio (sum < 0) sum.natAbs (d * d')
  | .infinite s, .infinite s' => if s = s' then .infinite s else .nan
  | .nan, _ | _, .nan => .nan
  | .infinite s, _ | _, .infinite s => .infinite s

/-- The product of two doubles, rounded. -/
def mul : Double → Double → Double
  | .finite s m e, .finite s' m' e' =>
    let (n, d) := magnitude m e
    let (n', d') := magnitude m' e'
    ofRatio (s != s') (n * n') (d * d')
  | .nan, _ | _, .nan => .nan
  | .infinite s, .infinite s' => .infinite (s != s')
  | .infinite s, .finite s' m _ | .finite s m _, .infinite s' =>
    if m = 0 then .nan else .infinite (s != s')

/-- Numerical equality: the zeros are equal and a NaN equals nothing. -/
def sameValue : Double → Double → Bool
  | .nan, _ | _, .nan => false
  | .infinite s, .infinite s' => s == s'
  | .finite s m e, .finite s' m' e' => (m == 0 && m' == 0) || (s == s' && m == m' && e == e')
  | _, _ => false

end Double

end TransitionAudit
