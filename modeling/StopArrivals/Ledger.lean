import StopArrivals.Store

/-!
# Source ledgers

The ledger lists the objects that arrive from the feed and remembers which of them have been
merged into the event table.
-/

namespace StopArrivals

/-- One object of the feed. -/
structure SourceObject where
  id : Int
  path : String
deriving DecidableEq

structure SourceLedger (σ : Type) where
  /-- The unprocessed objects with a tag in their path. -/
  list : String → Call σ (List SourceObject)
  /-- Mark objects as processed; answers how many rows changed. -/
  mark : List Int → Call σ Nat

/-- A ledger that is a component of a larger state. -/
def SourceLedger.within {ω σ : Type} (L : SourceLedger σ) (p : Part ω σ) : SourceLedger ω where
  list tag := p.lift (L.list tag)
  mark ids := p.lift (L.mark ids)

end StopArrivals
