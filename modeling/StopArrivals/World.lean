import StopArrivals.Batch.Engine
import StopArrivals.Batch.Memory
import StopArrivals.Database.Client
import StopArrivals.Ledger.Memory
import StopArrivals.Service
import StopArrivals.Store.Memory

/-!
# Worlds

The two states that the service can run on: everything in memory, or a database server for the
ledger and the event table with a query engine for the batches.
-/

namespace StopArrivals

/-! ## In memory -/

structure MemoryWorld where
  ledger : MemoryLedger
  batches : MemoryBatches
  store : MemoryStore
  shutdown : Bool
  /-- Request a shutdown at the start of the load that this many loads lead up to, itself
  included. -/
  shutdownAtLoad : Option Nat

namespace MemoryWorld

def ledgerPart : Part MemoryWorld MemoryLedger := ⟨ledger, fun l w => { w with ledger := l }⟩

def batchesPart : Part MemoryWorld MemoryBatches := ⟨batches, fun b w => { w with batches := b }⟩

def storePart : Part MemoryWorld MemoryStore := ⟨store, fun s w => { w with store := s }⟩

/-- A load begins. -/
def countLoad (w : MemoryWorld) : MemoryWorld :=
  match w.shutdownAtLoad with
  | some 1 => { w with shutdown := true, shutdownAtLoad := none }
  | some (n + 2) => { w with shutdownAtLoad := some (n + 1) }
  | _ => w

/-- The batches in memory, each load of them counted. -/
def countedBatches : BatchSource MemoryWorld where
  load paths columns filters := do
    Step.perform fun w => ((), countLoad w)
    (MemoryBatches.source.within batchesPart).load paths columns filters

def collaborators : Collaborators MemoryWorld where
  ledger := MemoryLedger.ledger.within ledgerPart
  batches := countedBatches
  store := MemoryStore.store.within storePart
  shutdownRequested := shutdown

end MemoryWorld

/-! ## With a database -/

structure DatabaseWorld (σ : Type) where
  server : σ
  engine : Engine
  shutdown : Bool

namespace DatabaseWorld

variable {σ : Type}

def serverPart : Part (DatabaseWorld σ) σ := ⟨server, fun s w => { w with server := s }⟩

def enginePart : Part (DatabaseWorld σ) Engine := ⟨engine, fun e w => { w with engine := e }⟩

def setShutdown (requested : Bool) (w : DatabaseWorld σ) : DatabaseWorld σ :=
  { w with shutdown := requested }

/-- Batches come from files beneath `root`. -/
def collaborators (S : Server σ) (root : String) : Collaborators (DatabaseWorld σ) where
  ledger := S.ledger.within serverPart
  batches := (Engine.source root).within enginePart
  store := S.eventStore.within serverPart
  shutdownRequested := shutdown

end DatabaseWorld

end StopArrivals
