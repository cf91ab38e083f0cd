import TransitionAudit.Number.Double

/-!
# Shortest decimals

The decimal with the fewest digits that reads back as a given double, the nearest to it among those,
and the text a report writes for it.
-/

namespace TransitionAudit.Double

/-- `digits * 10 ^ exponent`. -/
structure Decimal where
  digits : Nat
  exponent : Int
  deriving DecidableEq, Repr

/-- The reals that round to a double, its ends counted in when the mantissa is even; all three
numbers are multiples of `unit`, which is a quotient. -/
structure Interval where
  low : Nat
  mid : Nat
  high : Nat
  closed : Bool
  unit : Nat × Nat

/-- The rounding interval of a positive double. Below a power of two the neighbour is half as far. -/
def interval (m : Nat) (e : Int) : Interval :=
  let low := if m = twoTo 52 && -1074 < e then 4 * m - 1 else 4 * m - 2
  ⟨low, 4 * m, 4 * m + 2, m % 2 = 0, magnitude 1 (e - 2)⟩

/-- The sides of `c * 10 ^ k` against `x * unit`, as numbers over one denominator. -/
def Interval.sides (i : Interval) (c : Nat) (k : Int) (x : Nat) : Nat × Nat :=
  let (n, d) := i.unit
  if 0 ≤ k then (c * tenTo k.toNat * d, x * n) else (c * d, x * n * tenTo (-k).toNat)

/-- Whether `c * 10 ^ k` lies in the interval. -/
def Interval.holds (i : Interval) (c : Nat) (k : Int) : Bool :=
  let (a, low) := i.sides c k i.low
  let (b, high) := i.sides c k i.high
  if i.closed then low ≤ a && b ≤ high else low < a && b < high

/-- The position of the first digit of `num / den`: the greatest `p` with `10 ^ p ≤ num / den`. -/
def leadingPlace (num den : Nat) : Int :=
  let p : Int := (Nat.toDigits 10 num).length - (Nat.toDigits 10 den).length
  let fits : Bool :=
    if 0 ≤ p then den * tenTo p.toNat ≤ num else den ≤ num * tenTo (-p).toNat
  if fits then p else p - 1

/-- The better of the two neighbours of the double on the grid of multiples of `10 ^ k`: one inside
the interval, of two the nearer, and the even one if both are as near. -/
def Interval.onGrid (i : Interval) (k : Int) : Option Decimal :=
  let (unit, mid) := i.sides 1 k i.mid
  let below := mid / unit
  let above := below + 1
  let r := mid % unit
  match i.holds below k, i.holds above k with
  | true, true =>
    let up := unit < 2 * r || (2 * r = unit && below % 2 = 1)
    some ⟨if up then above else below, k⟩
  | true, false => some ⟨below, k⟩
  | false, true => some ⟨above, k⟩
  | false, false => none

/-- Tries grids of 1, 2, … digits; seventeen digits always read back. -/
def shortest (m : Nat) (e : Int) : Decimal :=
  let i := interval m e
  let (n, d) := magnitude m e
  let p := leadingPlace n d
  ((List.range 17).findSome? fun (count : Nat) => i.onGrid (p - count)).getD ⟨m, e⟩

/-- How a double is written: inside `[least, most)` places of the first digit the number is written
positionally, else with an exponent. -/
structure Style where
  least : Int
  most : Int
  /-- The least number of exponent digits. -/
  exponentDigits : Nat
  nan : Text
  infinity : Text

/-- Numbers from `1e-4` up to below `1e16` are positional, and always show a fraction. -/
def plain : Style := ⟨-4, 16, 2, "nan", "inf"⟩

/-- The text of a decimal. -/
def Decimal.text (style : Style) (x : Decimal) : List Char :=
  let ds := Nat.toDigits 10 x.digits
  let ds := match (ds.reverse.dropWhile (· = '0')).reverse with
    | [] => ['0']
    | ds => ds
  let place : Int := (Nat.toDigits 10 x.digits).length - 1 + x.exponent
  if style.least ≤ place && place < style.most then
    if place < 0 then '0' :: '.' :: List.replicate (-place - 1).toNat '0' ++ ds
    else
      let whole := place.toNat + 1
      let fraction := ds.drop whole
      ds.take whole ++ List.replicate (whole - ds.length) '0' ++ '.' ::
        (if fraction.isEmpty then ['0'] else fraction)
  else
    let sign := if place < 0 then '-' else '+'
    let exponent := Nat.toDigits 10 place.natAbs
    let exponent := List.replicate (style.exponentDigits - exponent.length) '0' ++ exponent
    let head := match ds with
      | [] => []
      | [c] => [c]
      | c :: rest => c :: '.' :: rest
    head ++ 'e' :: sign :: exponent

/-- The text of a double. -/
def text (style : Style) : Double → Text
  | .nan => style.nan
  | .infinite negative => (if negative then "-" else "") ++ style.infinity
  | .finite negative m e =>
    let body := if m = 0 then (Decimal.mk 0 0).text style else (shortest m e).text style
    Text.ofChars (if negative then '-' :: body else body)

end TransitionAudit.Double
