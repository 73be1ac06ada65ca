import StopArrivals.Fault
import StopArrivals.Json.Printer

/-!
# Row filters

A filter tests one column of a row. It has two readings that must keep the same rows: as a
condition in SQL, sent along with a scan, and as a test of a row at hand. In both a column that
is absent or null passes no test.
-/

namespace StopArrivals

inductive Test where
  /-- Differs from the value; from null, that is to say present. -/
  | differs (value : Json)
  | oneOf (values : List Json)
  | above (value : Json)

structure Filter where
  column : String
  test : Test

/-- The column is present and not null. -/
def Filter.present (column : String) : Filter := ⟨column, .differs .null⟩

/-! ## As SQL -/

/-- Write a character twice wherever it stands. -/
def doubled (q : Char) (s : String) : String :=
  String.ofList (s.toList.flatMap fun c => if c = q then [q, q] else [c])

def sqlName (name : String) : String := "\"" ++ doubled '"' name ++ "\""

def sqlText (s : String) : String := "'" ++ doubled '\'' s ++ "'"

/-- Lists and objects have no literal. -/
def sqlLiteral : Json → Except Cause String
  | .null => .ok "NULL"
  | .bool b => .ok (if b then "true" else "false")
  | .number n => .ok n.text
  | .text s => .ok (sqlText s)
  | v => .error (.plain ("unsupported filter literal " ++ v.print))

namespace Filter

def sql (f : Filter) : Except Cause String :=
  let column := sqlName f.column
  match f.test with
  | .differs .null => .ok (column ++ " IS NOT NULL")
  | .differs value => do
    let literal ← sqlLiteral value
    pure (column ++ " IS NOT NULL AND " ++ column ++ " <> " ++ literal)
  | .oneOf [] => .ok "false"
  | .oneOf values => do
    let literals ← values.mapM sqlLiteral
    pure (column ++ " IN (" ++ ", ".intercalate literals ++ ")")
  | .above value => do
    let literal ← sqlLiteral value
    pure (column ++ " > " ++ literal)

/-! ## On a row -/

/-- The order of two values of one kind that has an order. -/
def compareValues : Json → Json → Option Ordering
  | .number a, .number b => a.compare? b
  | .text a, .text b => some (compare a b)
  | .bool a, .bool b => some (compare a b)
  | _, _ => none

def passes (actual : Json) : Test → Bool
  | .differs .null => true
  | .differs expected => compareValues actual expected != some .eq
  | .oneOf options => options.any fun expected => compareValues actual expected == some .eq
  | .above bound => compareValues actual bound == some .gt

def keeps (f : Filter) (row : Record) : Bool :=
  let actual := (Json.lookup f.column row).getD .null
  !actual.isNull && passes actual f.test

end Filter

end StopArrivals
