/-!
# Decimal integers as text

Writing an integer is core's `Nat.toDigits` with a minus sign in front of a negative one. Reading
takes at most one sign and then ASCII digits only; a reader that knows its range rejects what
lies outside. Every written integer reads back (`readInteger_integerChars`).
-/

namespace StopArrivals

/-! ## Ranges -/

/-- An inclusive range of integers. -/
structure IntRange where
  low : Int
  high : Int

namespace IntRange

/-- The two's complement integers of a width. -/
def signed (width : Nat) : IntRange :=
  let half : Nat := 1 <<< (width - 1)
  ⟨-half, half - 1⟩

/-- The natural numbers of a width. -/
def unsigned (width : Nat) : IntRange :=
  let count : Nat := 1 <<< width
  ⟨0, count - 1⟩

def contains (r : IntRange) (v : Int) : Bool := r.low ≤ v && v ≤ r.high

/-- A value that must stay in the range. -/
def checked (r : IntRange) (v : Int) : Option Int := if r.contains v then some v else none

/-- A value inside the range as it is, else the end nearest to it. -/
def clamp (r : IntRange) (v : Int) : Int := max r.low (min v r.high)

theorem contains_iff {r : IntRange} {v : Int} : r.contains v = true ↔ r.low ≤ v ∧ v ≤ r.high := by
  simp [contains]

end IntRange

/-! ## Writing -/

def naturalChars (n : Nat) : List Char := Nat.toDigits 10 n

def integerChars : Int → List Char
  | .ofNat n => naturalChars n
  | .negSucc n => '-' :: naturalChars (n + 1)

def naturalText (n : Nat) : String := String.ofList (naturalChars n)

def integerText (v : Int) : String := String.ofList (integerChars v)

/-! ## Reading -/

/-- At least one ASCII digit and nothing else. -/
def readNatural (cs : List Char) : Option Nat :=
  if cs ≠ [] ∧ cs.all Char.isDigit then some (Nat.ofDigitChars 10 cs 0) else none

/-- Digits with at most one sign in front. -/
def readInteger : List Char → Option Int
  | '+' :: cs => (readNatural cs).map Int.ofNat
  | '-' :: cs => (readNatural cs).map fun n => -(n : Int)
  | cs => (readNatural cs).map Int.ofNat

/-- A signed integer of the given width; a plus or a minus sign may stand in front. -/
def readSigned (width : Nat) (cs : List Char) : Option Int :=
  (readInteger cs).filter (IntRange.signed width).contains

/-- An unsigned integer of the given width; only a plus sign may stand in front. -/
def readUnsigned (width : Nat) : List Char → Option Nat
  | '+' :: cs => (readNatural cs).filter (· < 1 <<< width)
  | cs => (readNatural cs).filter (· < 1 <<< width)

/-! ## Written integers read back -/

theorem readNatural_naturalChars (n : Nat) : readNatural (naturalChars n) = some n := by
  have hall : (naturalChars n).all Char.isDigit = true := by
    rw [List.all_eq_true]
    exact fun c hc => Nat.isDigit_of_mem_toDigits (by decide) (by decide) hc
  rw [readNatural, if_pos ⟨Nat.toDigits_ne_nil, hall⟩, naturalChars,
    Nat.ofDigitChars_toDigits (by decide) (by decide)]

theorem readInteger_of_isDigit {c : Char} {cs : List Char} (h : c.isDigit = true) :
    readInteger (c :: cs) = (readNatural (c :: cs)).map Int.ofNat := by
  unfold readInteger
  split
  · next heq => cases heq; simp [Char.isDigit] at h
  · next heq => cases heq; simp [Char.isDigit] at h
  · rfl

theorem readInteger_naturalChars (n : Nat) : readInteger (naturalChars n) = some (n : Int) := by
  cases hc : naturalChars n with
  | nil => exact absurd hc Nat.toDigits_ne_nil
  | cons c cs =>
    have hd : c.isDigit = true :=
      Nat.isDigit_of_mem_toDigits (b := 10) (n := n) (by decide) (by decide)
        (by rw [← naturalChars, hc]; exact List.mem_cons_self)
    rw [readInteger_of_isDigit hd, ← hc, readNatural_naturalChars]
    rfl

theorem readInteger_integerChars (v : Int) : readInteger (integerChars v) = some v := by
  cases v with
  | ofNat n => exact readInteger_naturalChars n
  | negSucc n =>
    simp only [integerChars, readInteger, readNatural_naturalChars]
    rfl

theorem integerText_inj {a b : Int} (h : integerText a = integerText b) : a = b := by
  have hchars := String.ofList_injective h
  have hread := congrArg readInteger hchars
  rw [readInteger_integerChars, readInteger_integerChars] at hread
  exact Option.some.inj hread

end StopArrivals
