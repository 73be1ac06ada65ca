import StopArrivals.Number.Binary64

/-!
# Products that leading bits round

The first 128 bits of a power of ten are enough to round most of its products with a number of 64
bits to the nearest floating-point number. They are not where the bits cut off could carry into
the 55 bits that decide, and a product that may lie halfway between two neighbours is left alone
as well.
-/

namespace StopArrivals

/-- The first 128 bits of a power of ten, the rest cut off. -/
def leadingBits (places : Int) : Nat :=
  let num := tenPower places.toNat
  let den := tenPower (-places).toNat
  let k := 127 - floorLog2 num den
  (num <<< k.toNat) / (den <<< (-k).toNat)

/-- Could a product with a cut power, which falls short of the exact one by less than its other
factor, carry beyond its last bits? -/
def mayCarry (bits product factor : Nat) : Bool := 1 <<< bits ≤ product % (1 <<< bits) + factor

/-- Is a product of 127 or 128 bits followed by nothing but zeros behind its first 54 or 55 bits, of
which the last is set and the one before is not? -/
def mayBeHalfway (product : Nat) : Bool :=
  product % (1 <<< 73) = 0 && (product >>> (73 + (product >>> 127))) % 4 = 1

/-- Does a power of ten give up enough with its leading bits to round its product with a positive
number of at most 64 bits? Only where 64 of them could carry are all of them used. -/
def roundsByLeadingBits (m : Nat) (places : Int) : Bool :=
  let factor := m <<< (63 - m.log2)
  let power := leadingBits places
  let short := factor * (power >>> 64)
  if mayCarry 73 short factor then
    let long := factor * power
    !mayCarry 137 long factor && !mayBeHalfway (long >>> 64)
  else !mayBeHalfway short

end StopArrivals
