import StopArrivals.Outcome

/-!
# Running totals

The totals over all cycles so far. Counters are 64 bits wide and wrap. The last error is that of
the latest cycle alone: a cycle without a fault clears it.
-/

namespace StopArrivals

structure Totals where
  cycles : UInt64
  partitionsProcessed : UInt64
  partitionsFailed : UInt64
  eventsUpdated : UInt64
  eventsDeleted : UInt64
  eventsInserted : UInt64
  lastError : Option String
deriving DecidableEq

namespace Totals

def zero : Totals := ⟨0, 0, 0, 0, 0, 0, none⟩

def recordError (t : Totals) (message : String) : Totals := { t with lastError := some message }

def clearError (t : Totals) : Totals := { t with lastError := none }

def addMerge (t : Totals) (r : MergeReport) : Totals :=
  { t with
    eventsUpdated := t.eventsUpdated + UInt64.ofNat r.updated
    eventsDeleted := t.eventsDeleted + UInt64.ofNat r.deleted
    eventsInserted := t.eventsInserted + UInt64.ofNat r.inserted }

/-- Count one outcome. A merge counts also when its objects could not be marked. -/
def addOutcome (t : Totals) (o : Outcome) : Totals :=
  let t := match o.report? with
    | some r => t.addMerge r
    | none => t
  if o.isProcessed then { t with partitionsProcessed := t.partitionsProcessed + 1 }
  else { t with partitionsFailed := t.partitionsFailed + 1 }

/-- The message of the last outcome that carries a fault. -/
def lastFault (outcomes : List Outcome) : Option String :=
  (outcomes.filterMap Outcome.fault?).getLast?.map Fault.message

def recordCycle (t : Totals) (r : CycleReport) : Totals :=
  let t := r.outcomes.foldl addOutcome { t with cycles := t.cycles + 1 }
  { t with lastError := lastFault r.outcomes }

end Totals

end StopArrivals
