import StopArrivals.Number.Shortest
import StopArrivals.Text.Decimal

/-!
# JSON values

Integers and floating-point numbers are different values, also where they are equal in size: `1`
and `1.0` differ. The members of an object are kept as a list; in canonical form they are in
strictly ascending order of their keys, and `Json.canonical` brings any value into that form.
-/

namespace StopArrivals

/-- A number as a JSON text spells it: an integer of 64 bits, signed or unsigned, or a
floating-point number. -/
inductive Number where
  | integer (value : Int)
  | float (value : Binary64)
deriving DecidableEq

inductive Json where
  | null
  | bool (value : Bool)
  | number (value : Number)
  | text (value : String)
  | list (items : List Json)
  | object (members : List (String × Json))

/-- The members of an object. -/
abbrev Record := List (String × Json)

namespace Number

/-- The value as a signed 64-bit integer, if it is one and was spelled as one. -/
def int64? : Number → Option Int
  | integer v => if (IntRange.signed 64).contains v then some v else none
  | float _ => none

/-- The nearest floating-point number. -/
def toBinary64? : Number → Option Binary64
  | integer v => Binary64.ofInt v
  | float x => some x

def text : Number → String
  | integer v => integerText v
  | float x => Shortest.text x

/-- The order of two numbers: of integers exactly, otherwise after rounding both. -/
def compare? (a b : Number) : Option Ordering :=
  match a.int64?, b.int64? with
  | some i, some j => some (compare i j)
  | _, _ => do
    let x ← a.toBinary64?
    let y ← b.toBinary64?
    pure (x.compare y)

end Number

namespace Json

def ofInt (v : Int) : Json := number (.integer v)

def ofNat (n : Nat) : Json := number (.integer n)

def isNull : Json → Bool
  | null => true
  | _ => false

/-- The value of the first member with the key. -/
def lookup (key : String) : Record → Option Json
  | [] => none
  | (k, v) :: rest => if k = key then some v else lookup key rest

/-- The member of an object; other values have none. -/
def member? (key : String) : Json → Option Json
  | object members => lookup key members
  | _ => none

/-! ## Canonical form -/

/-- Put a member in its place among members in order; an equal key loses its old value. -/
def insertMember (key : String) (value : Json) : Record → Record
  | [] => [(key, value)]
  | (k, v) :: rest =>
    if k = key then (key, value) :: rest
    else if key < k then (key, value) :: (k, v) :: rest
    else (k, v) :: insertMember key value rest

/-- Members in ascending order of keys, the last of equal keys kept. -/
def orderMembers (members : Record) : Record :=
  members.foldl (fun acc m => insertMember m.1 m.2 acc) []

mutual

def canonical : Json → Json
  | list items => list (canonicalItems items)
  | object members => object (orderMembers (canonicalMembers members))
  | null => null
  | bool b => bool b
  | number n => number n
  | text s => text s

def canonicalItems : List Json → List Json
  | [] => []
  | v :: rest => v.canonical :: canonicalItems rest

def canonicalMembers : Record → Record
  | [] => []
  | (k, v) :: rest => (k, v.canonical) :: canonicalMembers rest

end

/-- The members of an object in canonical form. -/
def canonicalRecord (members : Record) : Record := orderMembers (canonicalMembers members)

end Json

end StopArrivals
