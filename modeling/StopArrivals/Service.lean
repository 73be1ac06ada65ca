import StopArrivals.Cycle

/-!
# The service

Cycles whose reports go into the running totals, and the worker that runs them at every tick of
its clock until it is told to stop.
-/

namespace StopArrivals

/-- The state of the service: that of its collaborators, and the totals. -/
structure Service (ω : Type) where
  world : ω
  totals : Totals

namespace Service

variable {ω : Type}

def worldPart : Part (Service ω) ω := ⟨world, fun w s => { s with world := w }⟩

/-- Change the totals. -/
def count (f : Totals → Totals) : Step (Service ω) Unit :=
  Step.perform fun s => ((), { s with totals := f s.totals })

/-- Run a cycle and record it. A cycle that fails as a whole is recorded by its message, without
what led to it. -/
def runCycle (c : Collaborators ω) (horizon : Int) (tag : String) :
    Step (Service ω) (Except Cause CycleReport) := do
  let log ← Step.noting ((JobLog.new "process_trip_updates").add "source_tag" tag)
  Step.post log.started
  let result ← worldPart.step (c.runCycle horizon tag)
  match result with
  | .ok report =>
    count fun t => t.recordCycle report
    let failed := (report.outcomes.filter fun o => !o.isProcessed).length
    let log ← Step.noting (log.addAll
      [("partitions", naturalText report.outcomes.length), ("failed", naturalText failed)])
    Step.post log.complete
  | .error cause =>
    count fun t => t.recordError cause.message
    Step.post (log.failed "ledger" cause.message)
  pure result

/-! ## The worker -/

/-- What wakes the worker. -/
inductive Wake where
  | tick
  /-- The shutdown flag was set to a value. -/
  | flagSet (requested : Bool)
  /-- Nobody is left who could set the flag. -/
  | flagAbandoned
deriving DecidableEq

/-- Run a cycle and post the totals. -/
def tick (c : Collaborators ω) (horizon : Int) (tag : String) : Step (Service ω) Unit := do
  match ← runCycle c horizon tag with
  | .ok _ => pure ()
  | .error cause => Step.post (.cycleFailed cause.message)
  let totals ← Step.ask Service.totals
  Step.post (.totals totals)

/-- Work through what wakes the worker. Before it sleeps it looks at the shutdown flag, which
`setFlag` sets; it answers whether it has stopped. -/
def work (c : Collaborators ω) (setFlag : Bool → ω → ω) (horizon : Int) (tag : String) :
    List Wake → Step (Service ω) Bool
  | [] => do
    if ← Step.ask fun s => c.shutdownRequested s.world then
      Step.post .workerStopped
      pure true
    else pure false
  | wake :: rest => do
    if ← Step.ask fun s => c.shutdownRequested s.world then
      Step.post .workerStopped
      pure true
    else
      match wake with
      | .tick =>
        tick c horizon tag
        work c setFlag horizon tag rest
      | .flagSet requested =>
        Step.perform fun s => ((), { s with world := setFlag requested s.world })
        work c setFlag horizon tag rest
      | .flagAbandoned =>
        Step.post .workerStopped
        pure true

end Service

end StopArrivals
