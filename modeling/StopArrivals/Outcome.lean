import StopArrivals.Fault

/-!
# What a cycle reports

Counts of an extraction and of a merge, the outcome of each partition, and the report of a cycle.
-/

namespace StopArrivals

/-- How the rows of a batch and their predictions were used. -/
structure ExtractionCounts where
  rows : Nat
  predictions : Nat
  candidates : Nat
  noEstimate : Nat
  outsideHorizon : Nat
  malformed : Nat
deriving DecidableEq

def ExtractionCounts.none : ExtractionCounts := ⟨0, 0, 0, 0, 0, 0⟩

/-- How many events went into a merge, how many stored events they met, and how many rows each
group of statements changed. -/
structure MergeReport where
  candidates : Nat
  persisted : Nat
  updated : Nat
  deleted : Nat
  inserted : Nat
deriving DecidableEq

def MergeReport.none : MergeReport := ⟨0, 0, 0, 0, 0⟩

/-- What became of a partition and its objects. -/
inductive Outcome where
  /-- Merged, and its objects are marked in the ledger. -/
  | processed (partition : String) (objects : Nat) (report : MergeReport)
  /-- Nothing is marked; the next cycle tries again. -/
  | failed (partition : String) (objects : Nat) (fault : Fault)
  /-- Merged, but its objects could not be marked; the next cycle merges them again. -/
  | unmarked (partition : String) (objects : Nat) (report : MergeReport) (fault : Fault)
deriving DecidableEq

namespace Outcome

def partition : Outcome → String
  | processed p _ _ | failed p _ _ | unmarked p _ _ _ => p

def objects : Outcome → Nat
  | processed _ n _ | failed _ n _ | unmarked _ n _ _ => n

def isProcessed : Outcome → Bool
  | processed .. => true
  | _ => false

/-- The report of the merge, if there was one. -/
def report? : Outcome → Option MergeReport
  | processed _ _ r | unmarked _ _ r _ => some r
  | failed .. => none

def fault? : Outcome → Option Fault
  | processed .. => none
  | failed _ _ f | unmarked _ _ _ f => some f

end Outcome

structure CycleReport where
  outcomes : List Outcome
  /-- Partitions left for the next cycle because a shutdown was requested. -/
  skipped : Nat
deriving DecidableEq

end StopArrivals
