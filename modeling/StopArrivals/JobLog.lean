import StopArrivals.Notice

/-!
# Job logs

The start and the end of one named piece of work, each with the metadata gathered so far. The
metadata is an ordered map: a key keeps the place of its first addition and the value of its last.
Keys that the log itself writes cannot be taken.
-/

namespace StopArrivals

structure JobLog where
  name : String
  metadata : List (String × String)
deriving DecidableEq

namespace JobLog

/-- The keys that belong to the log. -/
def protectedKeys : List String :=
  ["service", "process_name", "process_id", "run_id", "status", "duration", "error_type",
    "total_disk_bytes", "used_disk_bytes", "free_disk_bytes"]

def new (name : String) : JobLog := ⟨name, []⟩

/-- Give a key its value, in its old place if it has one and else at the end. -/
def put (key value : String) : List (String × String) → List (String × String)
  | [] => [(key, value)]
  | (k, v) :: rest => if k = key then (key, value) :: rest else (k, v) :: put key value rest

/-- Add metadata. A protected key changes nothing but is noticed. -/
def add (log : JobLog) (key value : String) : JobLog × List Notice :=
  if key ∈ protectedKeys then (log, [.ignoredMetadata key log.name])
  else ({ log with metadata := put key value log.metadata }, [])

def addAll (log : JobLog) : List (String × String) → JobLog × List Notice
  | [] => (log, [])
  | (key, value) :: rest =>
    let (log, notices) := log.add key value
    let (log, more) := log.addAll rest
    (log, notices ++ more)

def metadataText (log : JobLog) : String :=
  ", ".intercalate (log.metadata.map fun (key, value) => key ++ "=" ++ value)

def started (log : JobLog) : Notice := .job log.name .started log.metadataText

def complete (log : JobLog) : Notice := .job log.name .complete log.metadataText

def failed (log : JobLog) (kind error : String) : Notice :=
  .job log.name (.failed kind error) log.metadataText

end JobLog

end StopArrivals
