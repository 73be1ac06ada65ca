/-!
# Hexadecimal text

Lowercase digits when writing, either case when reading.
-/

namespace StopArrivals

/-- The lowercase hexadecimal digits of a number, at least `width` of them. -/
def hexChars (width n : Nat) : List Char :=
  let ds := Nat.toDigits 16 n
  List.replicate (width - ds.length) '0' ++ ds

def hexDigit? (c : Char) : Option Nat :=
  if '0' ≤ c ∧ c ≤ '9' then some (c.toNat - '0'.toNat)
  else if 'a' ≤ c ∧ c ≤ 'f' then some (c.toNat - 'a'.toNat + 10)
  else if 'A' ≤ c ∧ c ≤ 'F' then some (c.toNat - 'A'.toNat + 10)
  else none

/-- The bytes that pairs of digits stand for. -/
def bytesOfHex? : List Char → Option (List UInt8)
  | [] => some []
  | a :: b :: cs => do
    let high ← hexDigit? a
    let low ← hexDigit? b
    let rest ← bytesOfHex? cs
    pure (UInt8.ofNat (high * 16 + low) :: rest)
  | [_] => none

def hexOfBytes (bytes : List UInt8) : String :=
  String.ofList (bytes.flatMap fun b => hexChars 2 b.toNat)

end StopArrivals
