/-!
# Text as bytes

Sizes and places in a text that are counted in the bytes of its UTF-8 form.
-/

namespace StopArrivals

def utf8 (s : String) : List UInt8 := s.toByteArray.data.toList

/-- How many bytes the characters take. -/
def utf8Length : List Char → Nat
  | [] => 0
  | c :: cs => c.utf8Size + utf8Length cs

theorem utf8Length_append (cs ds : List Char) :
    utf8Length (cs ++ ds) = utf8Length cs + utf8Length ds := by
  induction cs with
  | nil => exact (Nat.zero_add _).symm
  | cons c cs ih => rw [List.cons_append, utf8Length, utf8Length, ih, Nat.add_assoc]

/-- A place between two bytes: the number of its line, from one, and of the bytes before it on
that line. -/
structure TextPlace where
  line : Nat
  column : Nat
deriving DecidableEq

/-- The place after some bytes. -/
def TextPlace.after (bytes : List UInt8) : TextPlace :=
  ⟨bytes.count 10 + 1, (bytes.reverse.takeWhile (· ≠ 10)).length⟩

end StopArrivals
