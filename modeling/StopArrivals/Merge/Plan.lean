import StopArrivals.Event

/-!
# Merge plans

Stored events and fresh ones are put in order by fingerprint and timestamp and cut into runs of
one fingerprint. A run shrinks to one row with the latest timestamp of the run. If the run holds
stored events, the one with the lowest id stays and the others are deleted, so that a repeated
merge settles on the same row; otherwise its first event is inserted.

No run needs both a delete and an insert: whichever statement fails, each visit that had a row
still has one.
-/

namespace StopArrivals

/-- An event that takes part in a merge, with its id if it is stored already. -/
structure MergeRow where
  id : Option Int
  event : Event
deriving DecidableEq

def MergeRow.stored (e : StoredEvent) : MergeRow := ⟨some e.id, e.event⟩

def MergeRow.fresh (e : Event) : MergeRow := ⟨none, e⟩

/-- The order by fingerprint and then by timestamp. -/
def MergeRow.before (a b : MergeRow) : Bool :=
  a.event.fingerprint < b.event.fingerprint ||
    (a.event.fingerprint == b.event.fingerprint && a.event.timestamp ≤ b.event.timestamp)

/-- Stored events first and then fresh ones, in order, cut into runs of one fingerprint. -/
def mergeRuns (stored : List StoredEvent) (fresh : List Event) : List (List MergeRow) :=
  ((stored.map MergeRow.stored ++ fresh.map MergeRow.fresh).mergeSort MergeRow.before).splitBy
    fun a b => a.event.fingerprint == b.event.fingerprint

/-! ## What a run needs -/

/-- The lowest of some ids, and the others in the order in which they are passed over. -/
structure Survivor where
  id : Int
  others : List Int
deriving DecidableEq

/-- Meet another id: the lower one goes on. -/
def Survivor.meet (s : Survivor) (id : Int) : Survivor :=
  if s.id < id then { s with others := s.others ++ [id] } else ⟨id, s.others ++ [s.id]⟩

def survivor? : List Int → Option Survivor
  | [] => none
  | id :: ids => some (ids.foldl Survivor.meet ⟨id, []⟩)

namespace MergeRun

/-- The latest timestamp of a run. -/
def latest? (run : List MergeRow) : Option Int := (run.map (·.event.timestamp)).max?

def survivor? (run : List MergeRow) : Option Survivor :=
  StopArrivals.survivor? (run.filterMap MergeRow.id)

/-- A stored event that is alone in its run needs no update. -/
def update? (run : List MergeRow) : Option TimestampUpdate := do
  let s ← survivor? run
  let t ← latest? run
  if 1 < run.length then some ⟨s.id, t⟩ else none

def deletes (run : List MergeRow) : List Int :=
  match survivor? run with
  | some s => s.others
  | none => []

/-- The first event of a run that holds no stored one, with the latest timestamp. -/
def insert? (run : List MergeRow) : Option Event :=
  match survivor? run with
  | some _ => none
  | none => do
    let first ← run.head?
    let t ← latest? run
    pure { first.event with timestamp := t }

end MergeRun

/-! ## The plan -/

structure MergePlan where
  updates : List TimestampUpdate
  deletes : List Int
  inserts : List Event
deriving DecidableEq

def MergePlan.isEmpty (p : MergePlan) : Bool :=
  p.updates.isEmpty && p.deletes.isEmpty && p.inserts.isEmpty

def planMerge (stored : List StoredEvent) (fresh : List Event) : MergePlan :=
  let runs := mergeRuns stored fresh
  { updates := runs.filterMap MergeRun.update?
    deletes := runs.flatMap MergeRun.deletes
    inserts := runs.filterMap MergeRun.insert? }

end StopArrivals
