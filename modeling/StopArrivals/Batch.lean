import StopArrivals.Filter
import StopArrivals.Store

/-!
# Sources of batches

A batch is the rows of several objects of the feed.
-/

namespace StopArrivals

structure BatchSource (σ : Type) where
  /-- All rows of the objects with the paths, without the rows that fail a filter and, unless no
  columns are named, without the columns that are not among them. All or nothing. -/
  load : (paths columns : List String) → List Filter → Step σ (Except Cause (List Record))

/-- A source that is a component of a larger state. -/
def BatchSource.within {ω σ : Type} (B : BatchSource σ) (p : Part ω σ) : BatchSource ω where
  load paths columns filters := p.step (B.load paths columns filters)

end StopArrivals
