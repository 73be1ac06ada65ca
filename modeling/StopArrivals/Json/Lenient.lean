import StopArrivals.Json.Reader
import StopArrivals.Number.LeadingBits
import StopArrivals.Text.Search

/-!
# Reading JSON text leniently

A reader for files that are written by hand. It asks for the same grammar as the other reader, any
depth of nesting included, and does not say why a text is refused, but it overlooks a few things:

* a NUL character ends a number or a word, and so does nothing at all behind a long number;
* whatever follows such an end is passed over, up to the next character that separates tokens;
* half of a surrogate pair that stands alone counts as a NUL character.

Numbers are the nearest floating-point numbers, or integers of 64 bits.
-/

namespace StopArrivals.Json.Lenient

/-! ## Tokens -/

def isSeparator (c : Char) : Bool := c ∈ ['[', ']', '\x7b', '\x7d', ',', ':']

/-- Does a number or a word end in front of these characters? -/
def isEnd : List Char → Bool
  | [] => true
  | c :: _ => isSpace c || isSeparator c || c = '\x00'

/-- Pass over what follows the end of a number or a word. A quote after a backslash begins no
string. -/
def passOver : List Char → List Char
  | [] => []
  | '\\' :: '\\' :: cs => passOver cs
  | '\\' :: '"' :: cs => passOver cs
  | c :: cs => if isSpace c || isSeparator c || c = '"' then c :: cs else passOver cs

/-- A word with its end. -/
def readWord (word : List Char) (cs : List Char) : Option (List Char) :=
  (dropBeginning? word cs).bind fun rest => if isEnd rest then some (passOver rest) else none

/-! ## Strings -/

/-- The character that a high surrogate and the code unit after it stand for. The bits of a code
unit beyond the low surrogates are kept. -/
def joinUnits (high unit : Nat) : Nat :=
  0x10000 + (((high - 0xD800) <<< 10) ||| (unit - 0xDC00))

/-- The rest of a string after its opening quote. A high surrogate joins any code unit that is no
smaller than the low surrogates; without another unit behind it, it is a NUL character. -/
def readString : List Char → Option (List Char × List Char)
  | [] => none
  | '"' :: cs => some ([], cs)
  | '\\' :: 'u' :: a :: b :: c :: d :: cs =>
    match hexUnit? a b c d with
    | none => none
    | some n =>
      if isHighSurrogate n then
        match cs with
        | '\\' :: 'u' :: e :: f :: g :: h :: rest =>
          match hexUnit? e f g h with
          | none => none
          | some m =>
            if m < 0xDC00 then none
            else (readString rest).map fun (s, r) => (Char.ofNat (joinUnits n m) :: s, r)
        | cs => (readString cs).map fun (s, r) => ('\x00' :: s, r)
      else if isLowSurrogate n then none
      else (readString cs).map fun (s, r) => (Char.ofNat n :: s, r)
  | '\\' :: c :: cs =>
    match letterEscape? c with
    | none => none
    | some e => (readString cs).map fun (s, r) => (e :: s, r)
  | c :: cs =>
    if c.toNat < 0x20 then none else (readString cs).map fun (s, r) => (c :: s, r)

/-! ## Numbers -/

/-- How many characters sign, digits and point are, less one. -/
def extent (n : Numeral) : Nat :=
  (if n.negative then 1 else 0) + n.whole.length + n.fraction.elim 0 (·.length + 1) - 1

/-- Is a floating-point number long? Twenty characters before the exponent make it so as a rule.
But from their number, less one, the place in the text behind leading zeros and point is taken, in
bytes, and the code of the first digit is added, and a sum from 0 to 18 makes the number a short
one after all. The number stands at the front of the given characters of a text of the given
size. -/
def isLong (size : Nat) (cs : List Char) (n : Numeral) : Bool :=
  if extent n < 19 then false
  else
    let behind := (cs.drop (if n.negative then 1 else 0)).dropWhile fun c => c = '0' ∨ c = '.'
    let place : Int := size - utf8Length behind
    let code : Int := n.whole.head?.elim 0 fun c => (c.toNat : Int)
    let sum : Int := extent n + code - place
    sum < 0 || 19 ≤ sum

/-- Is a product with a power of ten exact up to its rounding, both factors being exact
floating-point numbers? -/
def isExactProduct (m : Nat) (places : Int) : Bool := m < 1 <<< 53 && places.natAbs ≤ 22

/-- The powers of ten whose leading bits are at hand. -/
def knownPlaces : IntRange := ⟨-325, 308⟩

/-- The value of a short floating-point number. Its digits count modulo `2 ^ 64` and its power of
ten as a signed integer of 32 bits. Its spelling decides where leading bits do not, and where they
give no normal number. -/
def shortValue? (n : Numeral) : Option Binary64 :=
  let m := Nat.ofDigitChars 10 n.digits 0 % (1 <<< 64)
  let places := n.places.bmod (1 <<< 32)
  if m = 0 then some (.zero n.negative)
  else if isExactProduct m places then Binary64.nearest n.negative m places
  else if knownPlaces.contains places ∧ roundsByLeadingBits m places then
    match (Binary64.nearest n.negative m places).filter Binary64.isNormal with
    | some x => some x
    | none => n.nearest?
  else n.nearest?

/-- Are the digits of an exponent taken to the last one? They are given up when they exceed
`2 ^ 32` before it. -/
def isTaken (e : Exponent) : Bool := Nat.ofDigitChars 10 e.digits.dropLast 0 ≤ 1 <<< 32

/-- A number at the front of a text of the given size, with its end. An integer of nineteen
characters and more and a long floating-point number end by themselves. -/
def readNumber (size : Nat) (cs : List Char) : Option (Number × List Char) := do
  let (n, rest) ← (readNumeral cs).toOption
  let value ←
    if n.isWhole then
      if 18 ≤ extent n ∨ isEnd rest then n.integer?.map Number.integer else none
    else if n.exponent.all isTaken then
      if isLong size cs n then n.nearest?.map Number.float
      else if isEnd rest then (shortValue? n).map Number.float
      else none
    else none
  pure (value, passOver rest)

/-! ## Values -/

mutual

/-- A value at the front of a text of the given size, after white space. The counter bounds the
steps. -/
def readValue (size : Nat) : Nat → List Char → Option (Json × List Char)
  | 0, _ => none
  | fuel + 1, cs =>
    match skipSpace cs with
    | '"' :: rest => (readString rest).map fun (s, r) => (text (String.ofList s), r)
    | '[' :: rest =>
      match skipSpace rest with
      | ']' :: r => some (list [], r)
      | r => (readItems size fuel r).map fun (vs, r) => (list vs, r)
    | '\x7b' :: rest =>
      match skipSpace rest with
      | '\x7d' :: r => some (object [], r)
      | r => (readMembers size fuel r).map fun (ms, r) => (object ms, r)
    | 'n' :: rest => (readWord ['u', 'l', 'l'] rest).map fun r => (null, r)
    | 't' :: rest => (readWord ['r', 'u', 'e'] rest).map fun r => (bool true, r)
    | 'f' :: rest => (readWord ['a', 'l', 's', 'e'] rest).map fun r => (bool false, r)
    | cs => (readNumber size cs).map fun (n, r) => (number n, r)

/-- The items of a list, of which there is at least one, up to its closing bracket. -/
def readItems (size : Nat) : Nat → List Char → Option (List Json × List Char)
  | 0, _ => none
  | fuel + 1, cs => do
    let (v, cs) ← readValue size fuel cs
    match skipSpace cs with
    | ',' :: rest => (readItems size fuel rest).map fun (vs, r) => (v :: vs, r)
    | ']' :: rest => some ([v], rest)
    | _ => none

/-- The members of an object, of which there is at least one, up to its closing brace. -/
def readMembers (size : Nat) : Nat → List Char → Option (Record × List Char)
  | 0, _ => none
  | fuel + 1, cs =>
    match skipSpace cs with
    | '"' :: rest => do
      let (key, cs) ← readString rest
      match skipSpace cs with
      | ':' :: cs => do
        let (v, cs) ← readValue size fuel cs
        match skipSpace cs with
        | ',' :: rest =>
          (readMembers size fuel rest).map fun (ms, r) => ((String.ofList key, v) :: ms, r)
        | '\x7d' :: rest => some ([(String.ofList key, v)], rest)
        | _ => none
      | _ => none
    | _ => none

end

/-- A whole text that holds one value and white space around it. Every step but the last consumes
a character or stands in front of one that does, so twice the length is steps enough. -/
def read? (s : String) : Option Json :=
  match readValue s.utf8ByteSize (2 * s.length + 2) s.toList with
  | some (v, rest) => if (skipSpace rest).isEmpty then some v else none
  | none => none

end StopArrivals.Json.Lenient
