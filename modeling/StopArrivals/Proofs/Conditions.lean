import StopArrivals.Proofs.Tokens
import StopArrivals.Text.Utf8

/-!
# Conditions of a query

The part of SQL's conditions that scans use: comparisons, lists of options and what they make up
with `AND` and parentheses. A comparison with null is neither true nor false. Values of different
kinds, floating-point numbers and nested values have no comparison here, so a condition can be
without a truth value (`Condition.truth?`).
-/

namespace StopArrivals.Sql

/-! ## Truth values -/

inductive Truth where
  | holds
  | fails
  | unknown
deriving DecidableEq

namespace Truth

def ofBool (b : Bool) : Truth := if b then holds else fails

def and : Truth → Truth → Truth
  | fails, _ | _, fails => fails
  | holds, holds => holds
  | _, _ => unknown

def or : Truth → Truth → Truth
  | holds, _ | _, holds => holds
  | fails, fails => fails
  | _, _ => unknown

theorem ofBool_eq_holds {b : Bool} : ofBool b = holds ↔ b = true := by cases b <;> decide

theorem and_eq_holds {p q : Truth} : p.and q = holds ↔ p = holds ∧ q = holds := by
  cases p <;> cases q <;> decide

theorem or_eq_holds {p q : Truth} : p.or q = holds ↔ p = holds ∨ q = holds := by
  cases p <;> cases q <;> decide

end Truth

/-! ## Values -/

/-- A value of a column or of a literal. -/
inductive Value where
  | null
  | bool (value : Bool)
  | integer (value : Int)
  | text (value : String)
  /-- A value whose comparisons are left open. -/
  | other
deriving DecidableEq

namespace Value

/-- The order of two values, none if one of them is null. -/
def compare? : Value → Value → Option (Option Ordering)
  | null, _ | _, null => some none
  | bool a, bool b => some (some (compare a b))
  | integer a, integer b => some (some (compare a b))
  | text a, text b => some (some (compareOfLessAndEq (utf8 a) (utf8 b)))
  | _, _ => none

theorem compare?_null (v : Value) : v.compare? null = some none := by cases v <;> rfl

end Value

/-- A test of the order of two values, unknown where they have none. -/
def Truth.ofOrder (test : Ordering → Bool) : Option Ordering → Truth
  | none => .unknown
  | some o => ofBool (test o)

theorem Truth.ofOrder_eq_holds {test : Ordering → Bool} {o : Option Ordering} :
    ofOrder test o = holds ↔ o.any test = true := by
  cases o with
  | none => simp [ofOrder]
  | some o => exact ofBool_eq_holds

/-! ## Conditions -/

inductive Term where
  | column (name : String)
  | literal (value : Value)
deriving DecidableEq

inductive Condition where
  /-- A truth value itself. -/
  | holds (t : Term)
  | present (t : Term)
  | differs (a b : Term)
  | above (a b : Term)
  | oneOf (t : Term) (options : List Value)
  | both (p q : Condition)
deriving DecidableEq

section

variable (columns : String → Value)

def Term.value : Term → Value
  | column name => columns name
  | literal value => value

def equalsOne? (v : Value) : List Value → Option Truth
  | [] => some .fails
  | option :: options => do
    let order ← v.compare? option
    let rest ← equalsOne? v options
    pure ((Truth.ofOrder (· == .eq) order).or rest)

def Condition.truth? : Condition → Option Truth
  | holds t =>
    match t.value columns with
    | .bool b => some (.ofBool b)
    | .null => some .unknown
    | _ => none
  | present t => some (.ofBool (t.value columns != .null))
  | differs a b => do
    let order ← (a.value columns).compare? (b.value columns)
    pure (.ofOrder (· != .eq) order)
  | above a b => do
    let order ← (a.value columns).compare? (b.value columns)
    pure (.ofOrder (· == .gt) order)
  | oneOf t options => equalsOne? (t.value columns) options
  | both p q => do
    let first ← p.truth?
    let second ← q.truth?
    pure (first.and second)

end

/-! ## Reading conditions -/

/-- The value of an integer's spelling. -/
def spelled (cs : List Char) : Value :=
  match readInteger cs with
  | some v => .integer v
  | none => .other

def readLiteral : List Token → Option (Value × List Token)
  | .word "NULL" :: ts => some (.null, ts)
  | .word "true" :: ts => some (.bool true, ts)
  | .word "false" :: ts => some (.bool false, ts)
  | .number digits :: ts => some (spelled digits.toList, ts)
  | .mark '-' :: .number digits :: ts => some (spelled ('-' :: digits.toList), ts)
  | .text s :: ts => some (.text s, ts)
  | _ => none

def readTerm : List Token → Option (Term × List Token)
  | .name column :: ts => some (.column column, ts)
  | ts => (readLiteral ts).map fun (value, rest) => (.literal value, rest)

/-- At least one literal and the parenthesis behind them. -/
def readOptions : Nat → List Token → Option (List Value × List Token)
  | 0, _ => none
  | steps + 1, ts => do
    let (value, rest) ← readLiteral ts
    match rest with
    | .mark ')' :: rest => pure ([value], rest)
    | .mark ',' :: rest => do
      let (values, rest) ← readOptions steps rest
      pure (value :: values, rest)
    | _ => none

def readComparison (ts : List Token) : Option (Condition × List Token) := do
  let (t, rest) ← readTerm ts
  match rest with
  | .word "IS" :: .word "NOT" :: .word "NULL" :: rest => pure (.present t, rest)
  | .word "IN" :: .mark '(' :: rest => do
    let (options, rest) ← readOptions rest.length rest
    pure (.oneOf t options, rest)
  | .mark '<' :: .mark '>' :: rest => do
    let (bound, rest) ← readTerm rest
    pure (.differs t bound, rest)
  | .mark '>' :: rest => do
    let (bound, rest) ← readTerm rest
    pure (.above t bound, rest)
  | rest => pure (.holds t, rest)

/-- A comparison, or a condition in parentheses. -/
def readOperand (inner : List Token → Option (Condition × List Token)) :
    List Token → Option (Condition × List Token)
  | .mark '(' :: ts => do
    let (condition, rest) ← inner ts
    match rest with
    | .mark ')' :: rest => pure (condition, rest)
    | _ => none
  | ts => readComparison ts

/-- Every level of parentheses and every `AND` takes a step. -/
def readCondition : Nat → List Token → Option (Condition × List Token)
  | 0, _ => none
  | steps + 1, ts => do
    let (first, rest) ← readOperand (readCondition steps) ts
    match rest with
    | .word "AND" :: rest => do
      let (second, rest) ← readCondition steps rest
      pure (.both first second, rest)
    | rest => pure (first, rest)

/-- The condition that the tokens make up. -/
def condition? (ts : List Token) : Option Condition :=
  match readCondition ts.length ts with
  | some (condition, []) => some condition
  | _ => none

/-- The truth value of a condition's text. -/
def evaluate (columns : String → Value) (sql : String) : Option Truth := do
  let ts ← tokens? sql.toList
  let condition ← condition? ts
  condition.truth? columns

/-! ### Step by step -/

section

variable {ts us rest : List Token}

theorem readTerm_of_readLiteral {value : Value} (h : readLiteral ts = some (value, rest)) :
    readTerm ts = some (.literal value, rest) := by
  rw [readTerm, h]
  · rfl
  · rintro column us rfl
    cases h

theorem readOptions_last {value : Value} (h : readLiteral ts = some (value, .mark ')' :: rest))
    (steps : Nat) : readOptions (steps + 1) ts = some ([value], rest) := by
  rw [readOptions, h]
  rfl

theorem readOptions_next {value : Value} {values : List Value} {steps : Nat}
    (h : readLiteral ts = some (value, .mark ',' :: us))
    (hrest : readOptions steps us = some (values, rest)) :
    readOptions (steps + 1) ts = some (value :: values, rest) := by
  rw [readOptions, h]
  simp only [Option.bind_eq_bind, Option.bind_some, hrest]
  rfl

theorem readComparison_oneOf {t : Term} {options : List Value}
    (h : readTerm ts = some (t, .word "IN" :: .mark '(' :: us))
    (hoptions : readOptions us.length us = some (options, rest)) :
    readComparison ts = some (.oneOf t options, rest) := by
  rw [readComparison, h]
  simp only [Option.bind_eq_bind, Option.bind_some, hoptions]
  rfl

theorem readComparison_differs {a b : Term}
    (h : readTerm ts = some (a, .mark '<' :: .mark '>' :: us)) (hb : readTerm us = some (b, rest)) :
    readComparison ts = some (.differs a b, rest) := by
  rw [readComparison, h]
  simp only [Option.bind_eq_bind, Option.bind_some, hb]
  rfl

theorem readComparison_above {a b : Term} (h : readTerm ts = some (a, .mark '>' :: us))
    (hb : readTerm us = some (b, rest)) : readComparison ts = some (.above a b, rest) := by
  rw [readComparison, h]
  simp only [Option.bind_eq_bind, Option.bind_some, hb]
  rfl

theorem readOperand_comparison {inner : List Token → Option (Condition × List Token)}
    {p : Condition} (h : readComparison ts = some (p, rest)) :
    readOperand inner ts = some (p, rest) := by
  rw [readOperand, h]
  rintro us rfl
  cases h

theorem readOperand_inner {inner : List Token → Option (Condition × List Token)} {p : Condition}
    (h : inner ts = some (p, .mark ')' :: rest)) :
    readOperand inner (.mark '(' :: ts) = some (p, rest) := by
  rw [readOperand, h]
  rfl

theorem readCondition_alone {steps : Nat} {p : Condition}
    (h : readOperand (readCondition steps) ts = some (p, rest))
    (hrest : rest.head? ≠ some (.word "AND")) : readCondition (steps + 1) ts = some (p, rest) := by
  rw [readCondition, h]
  simp only [Option.bind_eq_bind, Option.bind_some]
  split
  · exact absurd rfl hrest
  · rfl

theorem readCondition_both {steps : Nat} {p q : Condition}
    (h : readOperand (readCondition steps) ts = some (p, .word "AND" :: us))
    (hq : readCondition steps us = some (q, rest)) :
    readCondition (steps + 1) ts = some (.both p q, rest) := by
  rw [readCondition, h]
  simp only [Option.bind_eq_bind, Option.bind_some, hq]
  rfl

end

end StopArrivals.Sql
