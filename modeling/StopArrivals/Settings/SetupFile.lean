import StopArrivals.Json.Lenient

/-!
# Setup files

A JSON file with values for settings that the environment leaves open. A file that cannot be read
as a whole counts for nothing. A value of null is as good as none, and names that are not known
are passed over, but a known name may stand only once. The values may also be given as a list, in
the order of the fields.
-/

namespace StopArrivals

/-- What stands under the path of a setup file. -/
inductive SetupFile where
  | absent
  | unreadable
  | content (text : String)
deriving DecidableEq

/-- A file of bytes, which must be UTF-8. -/
def SetupFile.ofBytes (bytes : List UInt8) : SetupFile :=
  match String.fromUTF8? ⟨bytes.toArray⟩ with
  | some text => .content text
  | none => .unreadable

structure SetupValues where
  databaseUrl : Option String
  poolSize : Option Nat
  sourceTag : Option String
  batchRoot : Option String
  horizon : Option Int
  pollInterval : Option Nat
deriving DecidableEq

namespace SetupValues

def textValue? : Json → Option String
  | .text s => some s
  | _ => none

/-- An integer within a range. -/
def integerValue? (range : IntRange) : Json → Option Int
  | .number (.integer v) => if range.contains v then some v else none
  | _ => none

def naturalValue? (width : Nat) (v : Json) : Option Nat :=
  (integerValue? (IntRange.unsigned width) v).map Int.toNat

/-- A value that may be missing or null; the outer absence says that it is of the wrong kind. -/
def optional? {α : Type} (read : Json → Option α) : Option Json → Option (Option α)
  | none | some .null => some none
  | some v => (read v).map some

/-- The values, each given by its position and name. -/
def assemble? (find : Nat → String → Option (Option Json)) : Option SetupValues := do
  let databaseUrl ← (← find 0 "database_url") |> optional? textValue?
  let poolSize ← (← find 1 "db_pool_size") |> optional? (naturalValue? 32)
  let sourceTag ← (← find 2 "source_tag") |> optional? textValue?
  let batchRoot ← (← find 3 "batch_root") |> optional? textValue?
  let horizon ← (← find 4 "prediction_horizon_seconds") |>
    optional? (integerValue? (IntRange.signed 64))
  let pollInterval ← (← find 5 "poll_interval_ms") |> optional? (naturalValue? 64)
  pure ⟨databaseUrl, poolSize, sourceTag, batchRoot, horizon, pollInterval⟩

/-- The only member with a name, if there is one. -/
def onlyMember? (members : Record) (name : String) : Option (Option Json) :=
  match members.filter fun m => m.1 = name with
  | [] => some none
  | [m] => some (some m.2)
  | _ => none

def ofJson? : Json → Option SetupValues
  | .object members => assemble? fun _ name => onlyMember? members name
  | .list items => assemble? fun position _ => some items[position]?
  | _ => none

def read? (text : String) : Option SetupValues := (Json.Lenient.read? text).bind ofJson?

end SetupValues

end StopArrivals
