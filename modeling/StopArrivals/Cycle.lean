import StopArrivals.Batch
import StopArrivals.Extraction
import StopArrivals.JobLog
import StopArrivals.Latest
import StopArrivals.Merge.Apply
import StopArrivals.Partition

/-!
# Cycles

A cycle takes the unprocessed objects of the ledger partition by partition: load the rows, extract
candidates, keep the latest of each visit, merge them into the store, and only then mark the
objects. A partition that fails is left for the next cycle and does not hold up the others. A
request to shut down is looked at between partitions only.
-/

namespace StopArrivals

/-- What a cycle works with, all on one state. -/
structure Collaborators (ω : Type) where
  ledger : SourceLedger ω
  batches : BatchSource ω
  store : EventStore ω
  shutdownRequested : ω → Bool

namespace Collaborators

variable {ω : Type}

/-- From the objects of a partition to their events in the store. -/
def loadAndMerge (c : Collaborators ω) (horizon : Int) (p : Partition) :
    Attempt ω MergeReport := do
  let loaded ← (c.batches.load p.paths tripUpdateColumns tripUpdateFilters :
    Step ω (Except Cause (List Record)))
  match loaded with
  | .error cause => throw (.load cause)
  | .ok rows =>
    let extraction ← ExceptT.mk (Step.noting (extract horizon rows))
    (Step.post (.extracted p.key extraction.counts) : Step ω Unit)
    mergeEvents c.store (latestEvents extraction.candidates)

/-- The metadata that a processed partition adds to its log. -/
def reportMetadata (r : MergeReport) : List (String × String) :=
  [("candidates", naturalText r.candidates), ("persisted", naturalText r.persisted),
    ("updated", naturalText r.updated), ("deleted", naturalText r.deleted),
    ("inserted", naturalText r.inserted)]

def processPartition (c : Collaborators ω) (horizon : Int) (p : Partition) : Step ω Outcome := do
  let objects := p.objects.length
  let log ← Step.noting ((JobLog.new "process_trip_updates_partition").addAll
    [("partition", p.key), ("objects", naturalText objects)])
  Step.post log.started
  match ← (c.loadAndMerge horizon p).run with
  | .error fault =>
    Step.post (log.failed fault.kind fault.message)
    Step.post (.partitionFailed p.key objects fault)
    pure (.failed p.key objects fault)
  | .ok report =>
    match ← Step.perform (c.ledger.mark p.ids) with
    | .error cause =>
      let fault := Fault.ledger cause
      Step.post (log.failed fault.kind fault.message)
      Step.post (.partitionUnmarked p.key objects fault)
      pure (.unmarked p.key objects report fault)
    | .ok _ =>
      let log ← Step.noting (log.addAll (reportMetadata report))
      Step.post log.complete
      pure (.processed p.key objects report)

/-- Process partitions one after the other until none is left or a shutdown is requested. -/
def processAll (c : Collaborators ω) (horizon : Int) : List Partition → Step ω CycleReport
  | [] => pure ⟨[], 0⟩
  | p :: ps => do
    if ← Step.ask c.shutdownRequested then
      Step.post (.leftForNextRun (ps.length + 1))
      pure ⟨[], ps.length + 1⟩
    else
      let outcome ← c.processPartition horizon p
      let report ← c.processAll horizon ps
      pure { report with outcomes := outcome :: report.outcomes }

/-- One pass over the unprocessed objects with a tag. It fails only when they cannot be listed. -/
def runCycle (c : Collaborators ω) (horizon : Int) (tag : String) :
    Step ω (Except Cause CycleReport) := do
  match ← Step.perform (c.ledger.list tag) with
  | .error cause => pure (.error cause)
  | .ok objects =>
    let partitions := groupPartitions objects
    Step.post (.foundPartitions tag partitions.length)
    let report ← c.processAll horizon partitions
    pure (.ok report)

end Collaborators

end StopArrivals
