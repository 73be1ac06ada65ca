/-!
# Text within text

The empty text is part of every text.
-/

namespace StopArrivals

/-- Does the one text occur somewhere in the other? -/
def isPartOf (part : List Char) : List Char → Bool
  | [] => part.isEmpty
  | c :: cs => part.isPrefixOf (c :: cs) || isPartOf part cs

theorem isPartOf_iff {part whole : List Char} :
    isPartOf part whole = true ↔ part <:+: whole := by
  induction whole with
  | nil => simp [isPartOf]
  | cons c cs ih =>
    rw [isPartOf, Bool.or_eq_true, ih, List.isPrefixOf_iff_prefix, List.infix_cons_iff]

/-- The text after a given beginning, if it begins so. -/
def dropBeginning? : List Char → List Char → Option (List Char)
  | [], cs => some cs
  | _ :: _, [] => none
  | b :: bs, c :: cs => if b = c then dropBeginning? bs cs else none

theorem dropBeginning?_eq_some_iff {beginning cs rest : List Char} :
    dropBeginning? beginning cs = some rest ↔ cs = beginning ++ rest := by
  induction beginning generalizing cs with
  | nil => simp [dropBeginning?]
  | cons b bs ih =>
    cases cs with
    | nil => simp [dropBeginning?]
    | cons c cs =>
      by_cases h : b = c
      · simp [dropBeginning?, h, ih]
      · simp [dropBeginning?, h, Ne.symm h]

end StopArrivals
