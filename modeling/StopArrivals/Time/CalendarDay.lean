import StopArrivals.Text.Blank
import StopArrivals.Text.Decimal
import StopArrivals.Text.Utf8

/-!
# Calendar days

Days of the proleptic Gregorian calendar, and reading one from a text of eight bytes that spells
YYYYMMDD. The text is read twice: as year, month and day one after the other, each with white
space allowed before it and the year with a sign, and as one integer. Only texts that pass both
are days.
-/

namespace StopArrivals

structure CalendarDay where
  year : Int
  month : Nat
  day : Nat
deriving DecidableEq

namespace CalendarDay

def isLeapYear (year : Int) : Bool := year % 4 = 0 && (year % 100 ≠ 0 || year % 400 = 0)

/-- The length of a month; a month outside 1 to 12 has no days. -/
def daysInMonth (year : Int) (month : Nat) : Nat :=
  match month with
  | 1 | 3 | 5 | 7 | 8 | 10 | 12 => 31
  | 4 | 6 | 9 | 11 => 30
  | 2 => if isLeapYear year then 29 else 28
  | _ => 0

/-- Is there such a day? -/
def isReal (d : CalendarDay) : Bool := 1 ≤ d.day && d.day ≤ daysInMonth d.year d.month

/-! ## Reading -/

/-- Up to `most` digits from the front, at least one. -/
def readUpTo (most : Nat) (cs : List Char) : Option (Nat × List Char) :=
  let ds := (cs.take most).takeWhile Char.isDigit
  if ds = [] then none else some (Nat.ofDigitChars 10 ds 0, cs.drop ds.length)

/-- The year, white space before it skipped: four digits at most, or after a sign any number. -/
def readYear (cs : List Char) : Option (Int × List Char) :=
  match trimStartChars cs with
  | '-' :: cs => (readUpTo cs.length cs).map fun (n, rest) => (-(n : Int), rest)
  | '+' :: cs => (readUpTo cs.length cs).map fun (n, rest) => ((n : Int), rest)
  | cs => (readUpTo 4 cs).map fun (n, rest) => ((n : Int), rest)

/-- A number of two digits at most, white space before it skipped. -/
def readTwo (cs : List Char) : Option (Nat × List Char) := readUpTo 2 (trimStartChars cs)

/-- Year, month and day with nothing after them. -/
def read? (cs : List Char) : Option CalendarDay := do
  let (year, cs) ← readYear cs
  let (month, cs) ← readTwo cs
  let (day, cs) ← readTwo cs
  let d : CalendarDay := ⟨year, month, day⟩
  if cs = [] ∧ d.isReal then some d else none

end CalendarDay

/-- The integer YYYYMMDD that eight bytes of text spell, if it names a real day. -/
def readServiceDate (cs : List Char) : Option Int :=
  if utf8Length cs = 8 ∧ (CalendarDay.read? cs).isSome then readSigned 32 cs else none

end StopArrivals
