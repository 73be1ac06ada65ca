import StopArrivals.Totals

/-!
# Notices

Everything that the program tells its operators while it works, as values. `Notice.entry` words a
notice as a journal entry: a level, a message and named fields.
-/

namespace StopArrivals

inductive Level where
  | debug
  | info
  | warn
  | error
deriving DecidableEq

def Level.name : Level → String
  | debug => "DEBUG"
  | info => "INFO"
  | warn => "WARN"
  | error => "ERROR"

inductive FieldValue where
  | integer (value : Int)
  | text (value : String)
deriving DecidableEq

def FieldValue.count (n : Nat) : FieldValue := integer n

def FieldValue.total (n : UInt64) : FieldValue := integer n.toNat

structure Entry where
  level : Level
  message : String
  fields : List (String × FieldValue)
deriving DecidableEq

/-- Where a job stands. A failed job says what kind of failure it was and how it was worded. -/
inductive JobStatus where
  | started
  | complete
  | failed (kind : String) (error : String)
deriving DecidableEq

inductive Notice where
  | job (name : String) (status : JobStatus) (metadata : String)
  | ignoredMetadata (key : String) (owner : String)
  | skippedRow (route : String) (vehicle : String) (value : String)
  | skippedPrediction (route : String) (vehicle : String) (fault : PredictionFault)
  | extracted (partition : String) (counts : ExtractionCounts)
  | loadedBatch (files : Nat) (rows : Nat)
  | plannedMerge (candidates persisted update delete insert : Nat)
  | appliedGroup (group : StatementGroup) (rows : Nat)
  | foundPartitions (tag : String) (partitions : Nat)
  | leftForNextRun (skipped : Nat)
  | partitionFailed (partition : String) (objects : Nat) (fault : Fault)
  | partitionUnmarked (partition : String) (objects : Nat) (fault : Fault)
  | schemaReady
  | cycleFailed (error : String)
  | totals (totals : Totals)
  | workerStopped
  | setupUnreadable (path : String)
  | setupUnparsable (path : String)
deriving DecidableEq

namespace Notice

def serviceName : String := "trip-update-events"

def level : Notice → Level
  | job _ (.failed _ _) _ => .error
  | job .. => .info
  | ignoredMetadata .. | skippedRow .. | skippedPrediction .. | extracted .. | loadedBatch .. =>
    .debug
  | plannedMerge .. | appliedGroup .. | foundPartitions .. | leftForNextRun .. | schemaReady
  | totals .. | workerStopped => .info
  | partitionFailed .. | cycleFailed .. | setupUnreadable .. | setupUnparsable .. => .warn
  | partitionUnmarked .. => .error

def message : Notice → String
  | job .. => "process"
  | ignoredMetadata .. => "ignoring protected metadata key"
  | skippedRow .. => "skipping row with non-list stop_time_update"
  | skippedPrediction .. => "skipping malformed prediction"
  | extracted .. => "extracted trip update candidates"
  | loadedBatch .. => "loaded parquet batch"
  | plannedMerge .. => "planned trip update merge"
  | appliedGroup .. => "applied statement group"
  | foundPartitions .. => "found unprocessed trip update partitions"
  | leftForNextRun .. => "shutdown requested; leaving partitions for next run"
  | partitionFailed .. => "trip update partition failed; will retry next cycle"
  | partitionUnmarked .. =>
    "merge committed but ledger update failed; partition will be reprocessed"
  | schemaReady => "trip update schema ready"
  | cycleFailed .. => "trip update cycle failed"
  | totals .. => "trip update worker stats"
  | workerStopped => "trip update worker stopped"
  | setupUnreadable .. =>
    "trip-update-events failed to read setup config; using env defaults"
  | setupUnparsable .. =>
    "trip-update-events failed to parse setup config; using env defaults"

def jobFields (name : String) (status : String) (metadata : String) :
    List (String × FieldValue) :=
  [("service", .text serviceName), ("process_name", .text name), ("status", .text status),
    ("metadata", .text metadata)]

def partitionFields (partition : String) (objects : Nat) (fault : Fault) :
    List (String × FieldValue) :=
  [("partition", .text partition), ("objects", .count objects), ("error", .text fault.message)]

def fields : Notice → List (String × FieldValue)
  | job name .started metadata => jobFields name "started" metadata
  | job name .complete metadata => jobFields name "complete" metadata
  | job name (.failed kind error) metadata =>
    jobFields name "failed" metadata ++ [("error_type", .text kind), ("error", .text error)]
  | ignoredMetadata key owner => [("key", .text key), ("process", .text owner)]
  | skippedRow route vehicle value =>
    [("route", .text route), ("vehicle", .text vehicle), ("value", .text value)]
  | skippedPrediction route vehicle fault =>
    [("route", .text route), ("vehicle", .text vehicle), ("error", .text fault.message)]
  | extracted partition c =>
    [("partition", .text partition), ("rows", .count c.rows),
      ("predictions", .count c.predictions), ("candidates", .count c.candidates),
      ("no_estimate", .count c.noEstimate), ("outside_horizon", .count c.outsideHorizon),
      ("malformed", .count c.malformed)]
  | loadedBatch files rows => [("files", .count files), ("rows", .count rows)]
  | plannedMerge candidates persisted update delete insert =>
    [("candidates", .count candidates), ("persisted", .count persisted), ("update", .count update),
      ("delete", .count delete), ("insert", .count insert)]
  | appliedGroup group rows => [("group", .text group.name), ("rows", .count rows)]
  | foundPartitions tag partitions =>
    [("source_tag", .text tag), ("partitions", .count partitions)]
  | leftForNextRun skipped => [("skipped", .count skipped)]
  | partitionFailed partition objects fault | partitionUnmarked partition objects fault =>
    partitionFields partition objects fault
  | cycleFailed error => [("error", .text error)]
  | totals t =>
    [("cycles", .total t.cycles), ("partitions_processed", .total t.partitionsProcessed),
      ("partitions_failed", .total t.partitionsFailed),
      ("events_updated", .total t.eventsUpdated), ("events_deleted", .total t.eventsDeleted),
      ("events_inserted", .total t.eventsInserted),
      ("last_error", .text (t.lastError.getD ""))]
  | setupUnreadable path | setupUnparsable path => [("path", .text path)]
  | schemaReady | workerStopped => []

def entry (n : Notice) : Entry := ⟨n.level, n.message, n.fields⟩

end Notice

end StopArrivals
