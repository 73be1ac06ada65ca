/-!
# Finite binary floating-point numbers

A number of 53 significant bits is kept as its exact value, a natural significand times a power
of two with a sign, and every operation is exact arithmetic on natural numbers followed by one
rounding to the nearest representable value, a tie going to the even significand. Infinities and
not-a-number have no place here: an operation whose result leaves the range answers `none`.
-/

namespace StopArrivals

/-- The quotient rounded to the nearest natural number, a half to the even neighbour. -/
def roundHalfEven (num den : Nat) : Nat :=
  let q := num / den
  let twice := 2 * (num % den)
  if twice < den then q
  else if den < twice then q + 1
  else if q % 2 = 0 then q
  else q + 1

/-- The integer part of the binary logarithm of a positive fraction. -/
def floorLog2 (num den : Nat) : Int :=
  let k : Int := (num.log2 : Int) - den.log2
  if den <<< k.toNat ≤ num <<< (-k).toNat then k else k - 1

/-- Ten multiplied with itself. -/
def tenPower (k : Nat) : Nat := Nat.pow 10 k

/-- Plus or minus `significand * 2 ^ exponent`. In normal form the significand has 53 bits, or
fewer with the least exponent. -/
structure Binary64 where
  negative : Bool
  significand : Nat
  exponent : Int
deriving DecidableEq

namespace Binary64

def minExponent : Int := -1074

def maxExponent : Int := 971

def zero (negative : Bool) : Binary64 := ⟨negative, 0, minExponent⟩

def isZero (x : Binary64) : Bool := x.significand == 0

/-- The representable value nearest to a fraction; none beyond the largest one. -/
def ofRatio (negative : Bool) (num den : Nat) : Option Binary64 :=
  if num = 0 then some (zero negative)
  else
    let e := max minExponent (floorLog2 num den - 52)
    let m := roundHalfEven (num <<< (-e).toNat) (den <<< e.toNat)
    let x : Binary64 := if m = 1 <<< 53 then ⟨negative, 1 <<< 52, e + 1⟩ else ⟨negative, m, e⟩
    if x.exponent ≤ maxExponent then some x else none

def ofInt (v : Int) : Option Binary64 := ofRatio (v < 0) v.natAbs 1

def mul (x y : Binary64) : Option Binary64 :=
  let e := x.exponent + y.exponent
  ofRatio (x.negative != y.negative)
    ((x.significand * y.significand) <<< e.toNat) (1 <<< (-e).toNat)

/-- The quotient by a divisor other than zero. -/
def div (x y : Binary64) : Option Binary64 :=
  let e := x.exponent - y.exponent
  ofRatio (x.negative != y.negative)
    (x.significand <<< e.toNat) (y.significand <<< (-e).toNat)

def neg (x : Binary64) : Binary64 := { x with negative := !x.negative }

/-- The value in units of `2 ^ e`, for an `e` no greater than the exponent. -/
def inUnits (x : Binary64) (e : Int) : Int :=
  let n : Int := (x.significand <<< (x.exponent - e).toNat : Nat)
  if x.negative then -n else n

/-- The order of the values; the two zeros are equal. -/
def compare (x y : Binary64) : Ordering :=
  let e := min x.exponent y.exponent
  Ord.compare (x.inUnits e) (y.inUnits e)

/-- The integer part, toward zero. -/
def truncate (x : Binary64) : Int :=
  let n : Int := ((x.significand <<< x.exponent.toNat) >>> (-x.exponent).toNat : Nat)
  if x.negative then -n else n

/-! ## Powers of ten -/

/-- The largest power of ten that is representable as a finite number. -/
def maxTenPower : Nat := 308

def ofTenPower (k : Nat) : Option Binary64 := ofRatio false (tenPower k) 1

/-- Scale by a power of ten, at most `maxTenPower` places at a time, with a rounding at each
step. A zero stays zero. -/
def scaleByTen : Nat → Binary64 → Int → Option Binary64
  | 0, x, _ => some x
  | steps + 1, x, places =>
    if places.natAbs ≤ maxTenPower then do
      let t ← ofTenPower places.natAbs
      if 0 ≤ places then x.mul t else x.div t
    else if x.isZero then some x
    else if 0 ≤ places then none
    else do
      let t ← ofTenPower maxTenPower
      let y ← x.div t
      scaleByTen steps y (places + maxTenPower)

/-- The number written as an integer and a decimal exponent. The integer is rounded first and the
result scaled after, so the last bit may differ from a single rounding of the exact value. -/
def ofDecimal (negative : Bool) (significand : Nat) (places : Int) : Option Binary64 := do
  let x ← ofRatio false significand 1
  let y ← scaleByTen (places.natAbs / maxTenPower + 1) x places
  pure (if negative then y.neg else y)

/-- The representable value nearest to a number written as an integer and a decimal exponent. What
is far below the least value is zero, and what is far above the largest is none, without working
the power out. -/
def nearest (negative : Bool) (significand : Nat) (places : Int) : Option Binary64 :=
  if significand = 0 ∨ 3 * places + significand.log2 + 1080 < 0 then some (zero negative)
  else if 400 < places then none
  else ofRatio negative (significand * tenPower places.toNat) (tenPower (-places).toNat)

/-- Does the significand have all its bits? -/
def isNormal (x : Binary64) : Bool := 1 <<< 52 ≤ x.significand

end Binary64

end StopArrivals
