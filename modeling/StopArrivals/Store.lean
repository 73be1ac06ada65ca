import StopArrivals.Event
import StopArrivals.Step

/-!
# Event stores

What a merge needs of the event table. Each of the four operations is atomic by itself: one that
fails has changed nothing. Putting them in order is the caller's business.
-/

namespace StopArrivals

/-- A call on a collaborator: its answer or the cause of its failure, and the state it leaves. -/
abbrev Call (σ α : Type) : Type := σ → Except Cause α × σ

structure EventStore (σ : Type) where
  /-- The stored events with one of the fingerprints. -/
  select : List Fingerprint → Call σ (List StoredEvent)
  /-- Set timestamps; answers how many rows changed. -/
  update : List TimestampUpdate → Call σ Nat
  /-- Delete the rows with the ids; answers how many there were. -/
  delete : List Int → Call σ Nat
  /-- Insert all events or none; answers how many. -/
  insert : List Event → Call σ Nat

/-- A store that is a component of a larger state. -/
def EventStore.within {ω σ : Type} (S : EventStore σ) (p : Part ω σ) : EventStore ω where
  select fingerprints := p.lift (S.select fingerprints)
  update updates := p.lift (S.update updates)
  delete ids := p.lift (S.delete ids)
  insert events := p.lift (S.insert events)

end StopArrivals
