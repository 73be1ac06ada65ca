import StopArrivals.Number.Binary64

/-!
# The shortest decimal that reads back

Every decimal between the midpoints to the two neighbours of a binary number rounds to that
number (the midpoints too, when its significand is even). Among those decimals the ones with the
fewest digits are wanted, and of them the nearest. On each decimal grid only the two grid points
around the value need a look, so the grids are tried from coarse to fine.
-/

namespace StopArrivals.Shortest

/-- The number of decimal digits of a natural number. -/
def digitCount (n : Nat) : Nat := (Nat.toDigits 10 n).length

/-- The integer part of the decimal logarithm of a positive fraction. -/
def floorLog10 (num den : Nat) : Int :=
  if den ≤ num then digitCount (num / den) - 1
  else -(digitCount ((den + num - 1) / num - 1) : Int)

/-- The interval of decimals that round to a number, and the number itself, as numerators over
one denominator. -/
structure Interval where
  low : Nat
  value : Nat
  high : Nat
  den : Nat
  closed : Bool

/-- The interval of a number other than zero. Below a power of two the spacing halves. -/
def Interval.of (x : Binary64) : Interval :=
  let scale := (x.exponent - 2).toNat
  let below := if x.significand = 1 <<< 52 ∧ Binary64.minExponent < x.exponent then 1 else 2
  { low := (4 * x.significand - below) <<< scale
    value := (4 * x.significand) <<< scale
    high := (4 * x.significand + 2) <<< scale
    den := 1 <<< (2 - x.exponent).toNat
    closed := x.significand % 2 == 0 }

/-- Does `c * 10 ^ p` lie in the interval? -/
def Interval.hits (i : Interval) (p : Int) (c : Nat) : Bool :=
  let point := c * i.den * tenPower p.toNat
  let low := i.low * tenPower (-p).toNat
  let high := i.high * tenPower (-p).toNat
  if i.closed then low ≤ point && point ≤ high else low < point && point < high

/-- The grid points around the value that lie in the interval: the nearer one, of two equally
near the even one. -/
def Interval.onGrid (i : Interval) (p : Int) : Option Nat :=
  let num := i.value * tenPower (-p).toNat
  let den := i.den * tenPower p.toNat
  let c := num / den
  let nearest := roundHalfEven num den
  match i.hits p c, i.hits p (c + 1) with
  | true, true => some nearest
  | true, false => some c
  | false, true => some (c + 1)
  | false, false => none

/-- Try the grids `10 ^ p`, `10 ^ (p - 1)` and so on. -/
def Interval.search (i : Interval) : Nat → Int → Nat × Int
  | 0, p => (i.value * tenPower (-p).toNat / (i.den * tenPower p.toNat), p)
  | fuel + 1, p =>
    match i.onGrid p with
    | some c => if c = 10 then (1, p + 1) else (c, p)
    | none => i.search fuel (p - 1)

/-- The shortest decimal of a number other than zero, as digits and a power of ten. Seventeen
digits always suffice. -/
def decimal (x : Binary64) : Nat × Int :=
  let i := Interval.of x
  i.search 17 (floorLog10 i.value i.den)

/-! ## Layout -/

/-- Positional between `10 ^ (-5)` and `10 ^ 16`, always with a point, and in scientific notation
with a signed exponent outside. -/
def text (x : Binary64) : String :=
  let sign := if x.negative then "-" else ""
  if x.isZero then sign ++ "0.0"
  else
    let (d, p) := decimal x
    let digits := Nat.toDigits 10 d
    let lead : Int := digits.length + p
    let zeros (n : Nat) := List.replicate n '0'
    let body : List Char :=
      if -5 < lead ∧ lead ≤ 16 then
        if 0 ≤ p then digits ++ zeros p.toNat ++ ['.', '0']
        else if 0 < lead then digits.take lead.toNat ++ '.' :: digits.drop lead.toNat
        else ['0', '.'] ++ zeros (-lead).toNat ++ digits
      else
        let fraction := if digits.length = 1 then [] else '.' :: digits.drop 1
        let e := lead - 1
        digits.take 1 ++ fraction ++ ['e', if e < 0 then '-' else '+'] ++ Nat.toDigits 10 e.natAbs
    sign ++ String.ofList body

end StopArrivals.Shortest
