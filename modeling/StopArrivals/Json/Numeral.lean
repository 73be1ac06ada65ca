import StopArrivals.Json.Value

/-!
# Spelled numbers

A number of a JSON text in the parts that it is spelled with, and two ways to give it a value. The
first gathers 64 bits of the digits and scales them by powers of ten, which may miss the nearest
floating-point number by its last bit; the second takes the nearest one.
-/

namespace StopArrivals.Json

/-- A sign and the digits of an exponent. -/
structure Exponent where
  negative : Bool
  digits : List Char

/-- A number as it is spelled. Its integer part has at least one digit, and so has a fraction. -/
structure Numeral where
  negative : Bool
  whole : List Char
  fraction : Option (List Char)
  exponent : Option Exponent

/-- Append digits to a number as long as it stays below a limit, and answer it with the digits
left over. -/
def takeDigits (limit : Nat) : Nat → List Char → Nat × List Char
  | n, [] => (n, [])
  | n, c :: cs =>
    let m := 10 * n + (c.toNat - '0'.toNat)
    if m < limit then takeDigits limit m cs else (n, c :: cs)

namespace Exponent

def value (e : Exponent) : Int :=
  let n : Int := Nat.ofDigitChars 10 e.digits 0
  if e.negative then -n else n

/-- The digits after the one that brings the exponent to `2 ^ 31`. -/
def excess (e : Exponent) : List Char := (takeDigits (1 <<< 31) 0 e.digits).2.drop 1

end Exponent

namespace Numeral

/-- Is it spelled without point and exponent? -/
def isWhole (n : Numeral) : Bool := n.fraction.isNone && n.exponent.isNone

def exponentValue (n : Numeral) : Int := n.exponent.elim 0 Exponent.value

/-- The digits before and after the point. -/
def digits (n : Numeral) : List Char := n.whole ++ n.fraction.getD []

/-- The power of ten that the last digit counts. -/
def places (n : Numeral) : Int := n.exponentValue - ((n.fraction.getD []).length : Nat)

/-- The integer that the integer part stands for, if it has 64 bits, with a sign where there is
one. -/
def integer? (n : Numeral) : Option Int :=
  let m := Nat.ofDigitChars 10 n.whole 0
  if n.negative then (if m ≤ 1 <<< 63 then some (-m) else none)
  else if m < 1 <<< 64 then some m
  else none

/-- The floating-point number that the digits give as far as they fit into 64 bits. Digits of the
integer part that no longer fit count as places. -/
def scaled? (n : Numeral) : Option Binary64 :=
  let fraction := n.fraction.getD []
  let (high, surplus) := takeDigits (1 <<< 64) 0 n.whole
  let (m, rest) := takeDigits (1 <<< 64) high fraction
  let places : Int := surplus.length - (fraction.length - rest.length : Nat)
  Binary64.ofDecimal n.negative m (places + n.exponentValue)

/-- The nearest floating-point number. -/
def nearest? (n : Numeral) : Option Binary64 :=
  Binary64.nearest n.negative (Nat.ofDigitChars 10 n.digits 0) n.places

/-- An integer where the number is spelled as one and has 64 bits, else a scaled floating-point
number, and so is minus zero. -/
def toNumber? (n : Numeral) : Option Number :=
  match if n.isWhole then n.integer? else none with
  | none => n.scaled?.map .float
  | some v => if n.negative ∧ v = 0 then n.scaled?.map .float else some (.integer v)

end Numeral

end StopArrivals.Json
