import StopArrivals.Ledger
import StopArrivals.Text.Search

/-!
# A source ledger in memory

The objects keep the order in which they arrived. A ledger can be told to fail its next listing
or its next marking; a marking that fails counts as a call but marks nothing.
-/

namespace StopArrivals

structure LedgerRow where
  object : SourceObject
  processed : Bool
deriving DecidableEq

structure MemoryLedger where
  rows : List LedgerRow
  failNextList : Bool
  failNextMark : Bool
  /-- How often objects were to be marked. -/
  markCalls : Nat

namespace MemoryLedger

def numberedObjects (last : Int) : List String → List SourceObject
  | [] => []
  | path :: paths => ⟨last + 1, path⟩ :: numberedObjects (last + 1) paths

/-- A ledger of unprocessed objects with the ids 1, 2 and so on. -/
def ofPaths (paths : List String) : MemoryLedger :=
  ⟨(numberedObjects 0 paths).map fun o => ⟨o, false⟩, false, false, 0⟩

def processedPaths (l : MemoryLedger) : List String :=
  (l.rows.filter LedgerRow.processed).map (·.object.path)

/-- The unprocessed objects with the tag in their path. -/
def pending (tag : String) (l : MemoryLedger) : List SourceObject :=
  (l.rows.filter fun r => !r.processed && isPartOf tag.toList r.object.path.toList).map
    LedgerRow.object

def list (tag : String) : Call MemoryLedger (List SourceObject) := fun l =>
  if l.failNextList then
    (.error (.plain "injected list failure"), { l with failNextList := false })
  else (.ok (l.pending tag), l)

def markRow (ids : List Int) (r : LedgerRow) : LedgerRow :=
  if r.object.id ∈ ids then { r with processed := true } else r

def mark (ids : List Int) : Call MemoryLedger Nat := fun l =>
  let called := { l with markCalls := l.markCalls + 1 }
  if l.failNextMark then
    (.error (.plain "injected ledger failure"), { called with failNextMark := false })
  else
    let fresh := l.rows.filter fun r => !r.processed && r.object.id ∈ ids
    (.ok fresh.length, { called with rows := l.rows.map (markRow ids) })

def ledger : SourceLedger MemoryLedger := ⟨list, mark⟩

end MemoryLedger

end StopArrivals
