import StopArrivals.Proofs.Lineage
import StopArrivals.Proofs.Retry
import StopArrivals.World

/-!
# Cycles under interference

Between any two calls of a collaborator something may happen to a world in memory: a failure is set
for the next listing, the next marking or the next call of a group of statements, or a shutdown is
requested or called off. An `Interference` is all of that for a whole run. It may depend on the
world that it meets, and it leaves alone what the collaborators keep: the rows of the ledger, the
files, and the event table.

A partition that is processed under interference is merged as a whole and then marked as a whole, or
it is left: nothing is marked, and its merge was perhaps stopped halfway (`processPartition_ends`).
A good partition is left only if the interference is to blame.
-/

namespace StopArrivals

/-- What happens to a world before each call on it. Cycles are counted from one, and the calls of
each of them from zero; the first one is the listing. -/
structure Interference where
  act : (cycle call : Nat) → MemoryWorld → MemoryWorld
  rows_act : ∀ cycle call m, (act cycle call m).ledger.rows = m.ledger.rows
  batches_act : ∀ cycle call m, (act cycle call m).batches = m.batches
  table_act : ∀ cycle call m, (act cycle call m).store.table = m.store.table

/-- A world, the last cycle that began on it, and the last call of that cycle. -/
structure DisturbedWorld where
  world : MemoryWorld
  cycle : Nat
  call : Nat

namespace DisturbedWorld

def worldPart : Part DisturbedWorld MemoryWorld := ⟨world, fun m w => { w with world := m }⟩

def rows (w : DisturbedWorld) : List LedgerRow := w.world.ledger.rows

def batches (w : DisturbedWorld) : MemoryBatches := w.world.batches

def table (w : DisturbedWorld) : EventTable := w.world.store.table

def shutdown (w : DisturbedWorld) : Bool := w.world.shutdown

end DisturbedWorld

/-- Nothing is set to fail, and no shutdown is requested or will be. -/
structure Quiet (m : MemoryWorld) : Prop where
  list : m.ledger.failNextList = false
  mark : m.ledger.failNextMark = false
  store : m.store.failNext = none
  shutdown : m.shutdown = false
  shutdownAtLoad : m.shutdownAtLoad = none

namespace Interference

open DisturbedWorld

variable {α : Type} (i : Interference)

/-- The interference acts at a moment, and a call is about to be made. -/
def enter (cycle call : Nat) (w : DisturbedWorld) : DisturbedWorld :=
  ⟨i.act cycle call w.world, cycle, call⟩

theorem rows_enter (cycle call : Nat) (w : DisturbedWorld) : (i.enter cycle call w).rows = w.rows :=
  i.rows_act cycle call w.world

theorem batches_enter (cycle call : Nat) (w : DisturbedWorld) :
    (i.enter cycle call w).batches = w.batches := i.batches_act cycle call w.world

theorem table_enter (cycle call : Nat) (w : DisturbedWorld) :
    (i.enter cycle call w).table = w.table := i.table_act cycle call w.world

/-- The listing with which a cycle begins. -/
def first (f : Call MemoryWorld α) : Call DisturbedWorld α := fun w =>
  worldPart.lift f (i.enter (w.cycle + 1) 0 w)

def further (f : Call MemoryWorld α) : Call DisturbedWorld α := fun w =>
  worldPart.lift f (i.enter w.cycle (w.call + 1) w)

/-- The collaborators in memory, disturbed before each call. -/
def collaborators : Collaborators DisturbedWorld where
  ledger :=
    { list := fun tag => i.first (MemoryWorld.collaborators.ledger.list tag)
      mark := fun ids => i.further (MemoryWorld.collaborators.ledger.mark ids) }
  batches :=
    { load := fun paths columns filters => do
        Step.perform fun w => ((), i.enter w.cycle (w.call + 1) w)
        worldPart.step (MemoryWorld.collaborators.batches.load paths columns filters) }
  store :=
    { select := fun fingerprints => i.further (MemoryWorld.collaborators.store.select fingerprints)
      update := fun updates => i.further (MemoryWorld.collaborators.store.update updates)
      delete := fun ids => i.further (MemoryWorld.collaborators.store.delete ids)
      insert := fun events => i.further (MemoryWorld.collaborators.store.insert events) }
  shutdownRequested := shutdown

def QuietIn (cycle : Nat) : Prop := ∀ call m, Quiet (i.act cycle call m)

/-- What holds of any calls but the listing: files stay, and in a quiet cycle nobody requests a
shutdown. -/
structure Onward (w w' : DisturbedWorld) : Prop where
  batches : w'.batches = w.batches
  cycle : w'.cycle = w.cycle
  shutdown : i.QuietIn w.cycle → w.shutdown = false → w'.shutdown = false

namespace Onward

variable {i} {w w₁ w₂ : DisturbedWorld}

theorem refl (w : DisturbedWorld) : i.Onward w w := ⟨rfl, rfl, fun _ h => h⟩

theorem trans (h₁ : i.Onward w w₁) (h₂ : i.Onward w₁ w₂) : i.Onward w w₂ where
  batches := h₂.batches.trans h₁.batches
  cycle := h₂.cycle.trans h₁.cycle
  shutdown hquiet h := h₂.shutdown (h₁.cycle.symm ▸ hquiet) (h₁.shutdown hquiet h)

end Onward

theorem onward_enter {w w' : DisturbedWorld}
    (hbatches : w'.batches = (i.enter w.cycle (w.call + 1) w).batches) (hcycle : w'.cycle = w.cycle)
    (hshutdown : w'.shutdown = (i.enter w.cycle (w.call + 1) w).shutdown) : i.Onward w w' where
  batches := hbatches.trans (i.batches_enter _ _ w)
  cycle := hcycle
  shutdown hquiet _ := hshutdown.trans (hquiet (w.call + 1) w.world).shutdown

/-! ## The event store -/

/-- A call of the store leaves the ledger alone, and if it fails, that had been set. -/
structure Aside (group? : Option StatementGroup) (w w' : DisturbedWorld) : Prop where
  onward : i.Onward w w'
  rows : w'.rows = w.rows
  loud : ∀ group ∈ group?, ¬i.QuietIn w.cycle

/-- What a call does to the table of the store it does to the table of the world. -/
theorem groupEnds_further {group : StatementGroup} {work : EventTable → EventTable}
    {f : Call MemoryStore α} {w : DisturbedWorld}
    (h : GroupEnds MemoryStore.table MemoryStore.Moves group work
      (i.enter w.cycle (w.call + 1) w).world.store
      (mergeCall group f (i.enter w.cycle (w.call + 1) w).world.store)) :
    GroupEnds DisturbedWorld.table i.Aside group work w
      (mergeCall group (i.further (MemoryWorld.storePart.lift f)) w) := by
  have hrows := i.rows_enter w.cycle (w.call + 1) w
  have htable := i.table_enter w.cycle (w.call + 1) w
  have hloud : (i.enter w.cycle (w.call + 1) w).world.store.failNext = some group →
      ¬i.QuietIn w.cycle := fun hfail hquiet =>
    Option.some_ne_none group (hfail.symm.trans (hquiet (w.call + 1) w.world).store)
  have honward : ∀ s, i.Onward w { i.enter w.cycle (w.call + 1) w with
      world := { (i.enter w.cycle (w.call + 1) w).world with store := s } } :=
    fun s => i.onward_enter rfl rfl rfl
  have hcall : i.further (MemoryWorld.storePart.lift f) w =
      ((f (i.enter w.cycle (w.call + 1) w).world.store).1,
        { i.enter w.cycle (w.call + 1) w with
          world := { (i.enter w.cycle (w.call + 1) w).world with
            store := (f (i.enter w.cycle (w.call + 1) w).world.store).2 } }) := rfl
  rw [mergeCall] at h ⊢
  rw [hcall]
  rcases hf : f (i.enter w.cycle (w.call + 1) w).world.store with ⟨_ | a, s⟩ <;> rw [hf] at h
  · rcases h with ⟨hkept, hfail, -⟩
    exact .failed (hkept.trans htable) ⟨honward s, hrows, fun _ _ => hloud hfail⟩
  · rcases h with _ | ⟨hdone, -⟩
    exact .done (hdone.trans (congrArg work htable))
      ⟨honward s, hrows, fun _ h => absurd h (Option.not_mem_none _)⟩

theorem keeps_table : i.collaborators.store.Keeps DisturbedWorld.table i.Aside where
  refl w := ⟨.refl w, rfl, fun _ h => absurd h (Option.not_mem_none _)⟩
  trans {_ w w₁ _} h₁ h₂ := by
    refine ⟨h₁.onward.trans h₂.onward, h₂.rows.trans h₁.rows, fun group hgroup hquiet => ?_⟩
    exact h₂.loud group hgroup (h₁.onward.cycle.symm ▸ hquiet)
  select fingerprints w := i.groupEnds_further (MemoryStore.keeps_table.select fingerprints _)
  rows_of_select {fingerprints w rows w'} h := by
    have hanswer : (i.collaborators.store.select fingerprints w).1 = .ok rows :=
      congrArg Prod.fst h
    have hselect : MemoryStore.store.select fingerprints
        (i.enter w.cycle (w.call + 1) w).world.store =
      (.ok rows, (MemoryStore.select fingerprints
        (i.enter w.cycle (w.call + 1) w).world.store).2) := Prod.ext hanswer rfl
    rw [MemoryStore.keeps_table.rows_of_select hselect]
    exact congrArg (fun t : EventTable => t.rows.filter _) (i.table_enter _ _ w)
  update updates w := i.groupEnds_further (MemoryStore.keeps_table.update updates _)
  delete ids w := i.groupEnds_further (MemoryStore.keeps_table.delete ids _)
  insert {events w} hnew hdistinct := by
    refine i.groupEnds_further (MemoryStore.keeps_table.insert (fun e he => ?_) hdistinct)
    have htable : (i.enter w.cycle (w.call + 1) w).world.store.table = w.table :=
      i.table_enter _ _ w
    rw [htable]
    exact hnew e he

/-! ## The ledger and the files -/

/-- Nothing that the collaborators keep has changed. -/
structure Same (w w' : DisturbedWorld) : Prop where
  onward : i.Onward w w'
  rows : w'.rows = w.rows
  table : w'.table = w.table

/-- A listing begins a cycle. It finds what the interference has left. -/
structure Listed (tag : String) (w : DisturbedWorld)
    (result : Except Cause (List SourceObject) × DisturbedWorld) : Prop where
  rows : result.2.rows = w.rows
  batches : result.2.batches = w.batches
  table : result.2.table = w.table
  cycle : result.2.cycle = w.cycle + 1
  objects : ∀ objects, result.1 = .ok objects → ∃ l : MemoryLedger, l.rows = w.rows ∧
    objects = l.pending tag
  quiet : i.QuietIn (w.cycle + 1) → (∃ objects, result.1 = .ok objects) ∧ result.2.shutdown = false

theorem list_listed (tag : String) (w : DisturbedWorld) :
    i.Listed tag w (i.collaborators.ledger.list tag w) := by
  have hcall : i.collaborators.ledger.list tag w =
      ((MemoryLedger.list tag (i.enter (w.cycle + 1) 0 w).world.ledger).1,
        { i.enter (w.cycle + 1) 0 w with
          world := { (i.enter (w.cycle + 1) 0 w).world with
            ledger := (MemoryLedger.list tag (i.enter (w.cycle + 1) 0 w).world.ledger).2 } }) := rfl
  rw [hcall, MemoryLedger.list]
  split
  · next hfail =>
    refine ⟨i.rows_enter _ _ w, i.batches_enter _ _ w, i.table_enter _ _ w, rfl,
      fun _ h => (nomatch h), fun hquiet => ?_⟩
    exact absurd ((hquiet 0 w.world).list.symm.trans hfail) Bool.false_ne_true
  · exact ⟨i.rows_enter _ _ w, i.batches_enter _ _ w, i.table_enter _ _ w, rfl,
      fun _ h => ⟨_, i.rows_enter _ _ w, (Except.ok.inj h).symm⟩,
      fun hquiet => ⟨⟨_, rfl⟩, (hquiet 0 w.world).shutdown⟩⟩

inductive MarkEnds (ids : List Int) (w : DisturbedWorld) :
    Except Cause Nat × DisturbedWorld → Prop where
  | failed {cause : Cause} {w' : DisturbedWorld} (hsame : i.Same w w')
    (hloud : ¬i.QuietIn w.cycle) : MarkEnds ids w (.error cause, w')
  | done {n : Nat} {w' : DisturbedWorld} (honward : i.Onward w w')
    (hrows : w'.rows = w.rows.map (MemoryLedger.markRow ids)) (htable : w'.table = w.table) :
    MarkEnds ids w (.ok n, w')

theorem mark_ends (ids : List Int) (w : DisturbedWorld) :
    i.MarkEnds ids w (i.collaborators.ledger.mark ids w) := by
  have hcall : i.collaborators.ledger.mark ids w =
      ((MemoryLedger.mark ids (i.enter w.cycle (w.call + 1) w).world.ledger).1,
        { i.enter w.cycle (w.call + 1) w with
          world := { (i.enter w.cycle (w.call + 1) w).world with
            ledger := (MemoryLedger.mark ids
              (i.enter w.cycle (w.call + 1) w).world.ledger).2 } }) := rfl
  rw [hcall, MemoryLedger.mark]
  split
  · next hfail =>
    refine .failed ⟨i.onward_enter rfl rfl rfl, i.rows_enter _ _ w, i.table_enter _ _ w⟩
      fun hquiet => ?_
    exact absurd ((hquiet (w.call + 1) w.world).mark.symm.trans hfail) Bool.false_ne_true
  · exact .done (i.onward_enter rfl rfl rfl)
      (congrArg (List.map (MemoryLedger.markRow ids)) (i.rows_enter _ _ w)) (i.table_enter _ _ w)

/-- Whether or not objects can be marked. -/
theorem table_mark (ids : List Int) (w : DisturbedWorld) :
    (i.collaborators.ledger.mark ids w).2.table = w.table := by
  have hmark := i.mark_ends ids w
  generalize i.collaborators.ledger.mark ids w = marked at hmark ⊢
  cases hmark with
  | failed hsame => exact hsame.table
  | done _ _ htable => exact htable

theorem loadOf_eq (p : Partition) (w : DisturbedWorld) :
    (i.collaborators.loadOf p w).1 =
        w.batches.load tripUpdateColumns tripUpdateFilters p.paths ∧
      i.Same w (i.collaborators.loadOf p w).2 := by
  have hcount : ∀ m : MemoryWorld, m.countLoad.ledger = m.ledger ∧
      m.countLoad.batches = m.batches ∧ m.countLoad.store = m.store ∧
      (Quiet m → m.countLoad.shutdown = false) := by
    intro m
    rw [MemoryWorld.countLoad]
    split
    · next h => exact ⟨rfl, rfl, rfl, fun hquiet => nomatch h.symm.trans hquiet.shutdownAtLoad⟩
    · exact ⟨rfl, rfl, rfl, Quiet.shutdown⟩
    · exact ⟨rfl, rfl, rfl, Quiet.shutdown⟩
  obtain ⟨hledger, hbatches, hstore, hshutdown⟩ :=
    hcount (i.enter w.cycle (w.call + 1) w).world
  refine ⟨?_, ⟨?_, rfl, ?_⟩, ?_, ?_⟩
  · show (i.enter w.cycle (w.call + 1) w).world.countLoad.batches.load _ _ _ = _
    rw [hbatches]
    exact congrArg (fun b : MemoryBatches => b.load _ _ _) (i.batches_enter _ _ w)
  · exact hbatches.trans (i.batches_enter _ _ w)
  · exact fun hquiet _ => hshutdown (hquiet (w.call + 1) w.world)
  · exact (congrArg MemoryLedger.rows hledger).trans (i.rows_enter _ _ w)
  · exact (congrArg MemoryStore.table hstore).trans (i.table_enter _ _ w)

/-! ## A partition -/

inductive PartitionEnds (horizon : Int) (p : Partition) (w : DisturbedWorld) :
    Outcome × DisturbedWorld → Prop where
  | processed {events : List Event} {objects : Nat} {report : MergeReport} {w' : DisturbedWorld}
    (honward : i.Onward w w')
    (hevents : prepared horizon
      (w.batches.load tripUpdateColumns tripUpdateFilters p.paths) = .ok events)
    (hrows : w'.rows = w.rows.map (MemoryLedger.markRow p.ids))
    (htable : w'.table = w.table.merged events) :
    PartitionEnds horizon p w (.processed p.key objects report, w')
  /-- There is nothing to merge. -/
  | bad {outcome : Outcome} {w' : DisturbedWorld} {fault : Fault} (hsame : i.Same w w')
    (houtcome : outcome.isProcessed = false)
    (hfault : prepared horizon
      (w.batches.load tripUpdateColumns tripUpdateFilters p.paths) = .error fault) :
    PartitionEnds horizon p w (outcome, w')
  /-- The merge was stopped, or its objects could not be marked. -/
  | disturbed {outcome : Outcome} {w' : DisturbedWorld} {events : List Event}
    (honward : i.Onward w w') (houtcome : outcome.isProcessed = false)
    (hevents : prepared horizon
      (w.batches.load tripUpdateColumns tripUpdateFilters p.paths) = .ok events)
    (hrows : w'.rows = w.rows) (hstage : w.table.Stage events w'.table)
    (hloud : ¬i.QuietIn w.cycle) : PartitionEnds horizon p w (outcome, w')

theorem PartitionEnds.onward {horizon : Int} {p : Partition} {w : DisturbedWorld}
    {result : Outcome × DisturbedWorld} (h : i.PartitionEnds horizon p w result) :
    i.Onward w result.2 := by
  cases h with
  | processed honward | disturbed honward => exact honward
  | bad hsame => exact hsame.onward

theorem processPartition_ends (horizon : Int) (p : Partition) (w : DisturbedWorld) :
    i.PartitionEnds horizon p w ((i.collaborators.processPartition horizon p).effect w) := by
  rw [Collaborators.effect_processPartition, Collaborators.effect_loadAndMerge]
  obtain ⟨hload, hsame⟩ := i.loadOf_eq p w
  rw [hload]
  generalize (i.collaborators.loadOf p w).2 = w₁ at hsame
  cases hevents : prepared horizon
    (w.batches.load tripUpdateColumns tripUpdateFilters p.paths) with
  | error fault => exact .bad hsame rfl hevents
  | ok events =>
    rw [following_ok]
    have hmerge := i.keeps_table.merge_ends events w₁
    generalize (mergeEvents i.collaborators.store events).run.effect w₁ = merged at hmerge
    rcases hmerge with ⟨htable, haside⟩ | @⟨report, w₂, htable, haside⟩ <;>
      rw [hsame.table] at htable
    · refine .disturbed (hsame.onward.trans haside.onward) rfl hevents
        (haside.rows.trans hsame.rows) ?_ fun hquiet => ?_
      · rw [htable]
        exact EventTable.stage_before _ events _
      · exact haside.loud _ rfl (hsame.onward.cycle.symm ▸ hquiet)
    · have honward := hsame.onward.trans haside.onward
      have hrows := haside.rows.trans hsame.rows
      have hmark := i.mark_ends p.ids w₂
      dsimp only
      generalize i.collaborators.ledger.mark p.ids w₂ = marked at hmark
      rcases hmark with ⟨hsame₂, hloud⟩ | ⟨honward₂, hrows₂, htable₂⟩
      · refine .disturbed (honward.trans hsame₂.onward) rfl hevents (hsame₂.rows.trans hrows) ?_
          fun hquiet => hloud (honward.cycle.symm ▸ hquiet)
        rw [hsame₂.table, htable]
        exact .merged
      · exact .processed (honward.trans honward₂) hevents (by rw [hrows₂, hrows])
          (htable₂.trans htable)

end Interference

end StopArrivals
