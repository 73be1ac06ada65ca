import StopArrivals.Text.Quoted

/-!
# Faults

What can go wrong with one prediction, and what can go wrong with a whole partition. A fault says
its cause; the wording is in one function per type.
-/

namespace StopArrivals

/-- A failure reported by a collaborator: what failed, and what made it fail, outermost first. -/
structure Cause where
  message : String
  sources : List String
deriving DecidableEq

namespace Cause

/-- A failure that nothing else led to. -/
def plain (message : String) : Cause := ⟨message, []⟩

/-- The failure of an undertaking that failed because of another failure. -/
def within (undertaking : String) (c : Cause) : Cause := ⟨undertaking, c.message :: c.sources⟩

def full (c : Cause) : String := ": ".intercalate (c.message :: c.sources)

end Cause

/-- The groups of statements that a merge sends to the event table. -/
inductive StatementGroup where
  | select
  | update
  | delete
  | insert
deriving DecidableEq

def StatementGroup.name : StatementGroup → String
  | select => "SELECT"
  | update => "UPDATE"
  | delete => "DELETE"
  | insert => "INSERT"

/-- Why one prediction is left out. -/
inductive PredictionFault where
  | missing (field : String)
  | notAnInteger (field : String) (value : String)
deriving DecidableEq

def PredictionFault.message : PredictionFault → String
  | missing field => "prediction has no " ++ field
  | notAnInteger field value => "prediction field " ++ field ++ " is not an integer: " ++ value

/-- Why a partition was not finished. Only a ledger fault comes after its events are merged. -/
inductive Fault where
  | coercion (column : String) (value : String)
  | load (cause : Cause)
  | merge (group : StatementGroup) (cause : Cause)
  | ledger (cause : Cause)
deriving DecidableEq

namespace Fault

def kind : Fault → String
  | coercion _ _ => "type_coercion"
  | load _ => "load"
  | merge _ _ => "merge"
  | ledger _ => "ledger"

def message : Fault → String
  | coercion column value => "cannot coerce " ++ column ++ " value " ++ messageQuoted value
  | load cause => "failed to load batch: " ++ cause.full
  | merge group cause => group.name ++ " statement group failed: " ++ cause.full
  | ledger cause => "ledger update failed: " ++ cause.full

end Fault

end StopArrivals
