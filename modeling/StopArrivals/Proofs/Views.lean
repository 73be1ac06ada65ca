import StopArrivals.Proofs.Progress
import StopArrivals.Proofs.Transcript

/-!
# Views of a state

A state may hold more than the collaborators need, such as a log of what they do. If each call, seen
through a view, is a call on what the view shows, then so are merges, partitions and cycles
(`Collaborators.Shows.effect_runCycle`). Two views matter here:

- **what a recorded server forgets**: a cycle that is written down is the cycle that would have run
  without (`Server.runCycle_recorded`).
- **what interference counts**: if it happens between cycles only, a run is one of the collaborators
  in memory (`Interference.run_betweenCycles`).
-/

namespace StopArrivals

variable {σ ω υ α β ε : Type}

/-- An answer, and what a view shows of the state that comes with it. -/
def seen (view : ω → υ) (x : α × ω) : α × υ := (x.1, view x.2)

theorem seen_following {view : ω → υ} {x : Except ε α × ω} {f : α → ω → Except ε β × ω}
    {g : α → υ → Except ε β × υ} (h : ∀ a w, seen view (f a w) = g a (view w)) :
    seen view (following x f) = following (seen view x) g := by
  obtain ⟨_ | a, w⟩ := x
  · rfl
  · exact h a w

/-! ## Merges -/

/-- The calls of a store, seen through a view, are those of another one. -/
structure EventStore.Shows (view : ω → υ) (S : EventStore ω) (S' : EventStore υ) : Prop where
  select : ∀ fingerprints w, seen view (S.select fingerprints w) = S'.select fingerprints (view w)
  update : ∀ updates w, seen view (S.update updates w) = S'.update updates (view w)
  delete : ∀ ids w, seen view (S.delete ids w) = S'.delete ids (view w)
  insert : ∀ events w, seen view (S.insert events w) = S'.insert events (view w)

theorem seen_mergeCall {view : ω → υ} {group : StatementGroup} {call : Call ω α}
    {call' : Call υ α} {w : ω} (h : seen view (call w) = call' (view w)) :
    seen view (mergeCall group call w) = mergeCall group call' (view w) := by
  rw [mergeCall, mergeCall, ← h]
  rcases call w with ⟨_ | a, w₁⟩ <;> rfl

theorem seen_groupCall {view : ω → υ} {group : StatementGroup} {items : List α}
    {call : List α → Call ω Nat} {call' : List α → Call υ Nat} {w : ω}
    (h : seen view (call items w) = call' items (view w)) :
    seen view (groupCall group items call w) = groupCall group items call' (view w) := by
  rw [groupCall, groupCall]
  split
  · rfl
  · exact seen_mergeCall h

namespace EventStore.Shows

variable {view : ω → υ} {S : EventStore ω} {S' : EventStore υ}

theorem effect_apply (h : S.Shows view S') (plan : MergePlan) (w : ω) :
    seen view ((plan.apply S).run.effect w) = (plan.apply S').run.effect (view w) := by
  rw [StopArrivals.effect_apply, StopArrivals.effect_apply, ← seen_groupCall (h.update _ w)]
  refine seen_following fun updated w₁ => ?_
  rw [← seen_groupCall (h.delete _ w₁)]
  refine seen_following fun deleted w₂ => ?_
  rw [← seen_groupCall (h.insert _ w₂)]
  exact seen_following fun inserted w₃ => rfl

theorem effect_mergeEvents (h : S.Shows view S') (events : List Event) (w : ω) :
    seen view ((mergeEvents S events).run.effect w) =
      (mergeEvents S' events).run.effect (view w) := by
  rw [StopArrivals.effect_mergeEvents, StopArrivals.effect_mergeEvents]
  by_cases hempty : events.isEmpty
  · rw [if_pos hempty, if_pos hempty]
    rfl
  rw [if_neg hempty, if_neg hempty, ← seen_mergeCall (h.select _ w)]
  refine seen_following fun stored w₁ => ?_
  rw [← h.effect_apply]
  exact seen_following fun report w₂ => rfl

end EventStore.Shows

/-! ## Cycles -/

/-- The calls for partitions, seen through a view. The listing is left out. -/
structure Collaborators.Shows (view : ω → υ) (c : Collaborators ω) (c' : Collaborators υ) :
    Prop where
  store : c.store.Shows view c'.store
  load : ∀ p w, seen view (c.loadOf p w) = c'.loadOf p (view w)
  mark : ∀ ids w, seen view (c.ledger.mark ids w) = c'.ledger.mark ids (view w)
  shutdown : ∀ w, c.shutdownRequested w = c'.shutdownRequested (view w)

namespace Collaborators.Shows

variable {view : ω → υ} {c : Collaborators ω} {c' : Collaborators υ} (horizon : Int)

theorem effect_loadAndMerge (h : c.Shows view c') (p : Partition) (w : ω) :
    seen view ((c.loadAndMerge horizon p).run.effect w) =
      (c'.loadAndMerge horizon p).run.effect (view w) := by
  rw [Collaborators.effect_loadAndMerge, Collaborators.effect_loadAndMerge, ← h.load]
  exact seen_following fun events w₁ => h.store.effect_mergeEvents events w₁

theorem effect_processPartition (h : c.Shows view c') (p : Partition) (w : ω) :
    seen view ((c.processPartition horizon p).effect w) =
      (c'.processPartition horizon p).effect (view w) := by
  rw [Collaborators.effect_processPartition, Collaborators.effect_processPartition,
    ← h.effect_loadAndMerge]
  obtain ⟨_ | report, w₁⟩ := (c.loadAndMerge horizon p).run.effect w
  · rfl
  · have hmark := h.mark p.ids w₁
    dsimp only [seen] at hmark ⊢
    rw [← hmark]
    rcases c.ledger.mark p.ids w₁ with ⟨_ | _, w₂⟩ <;> rfl

theorem effect_processAll (h : c.Shows view c') (ps : List Partition) (w : ω) :
    seen view ((c.processAll horizon ps).effect w) =
      (c'.processAll horizon ps).effect (view w) := by
  induction ps generalizing w with
  | nil => rfl
  | cons p ps ih =>
    rw [effect_processAll_cons, effect_processAll_cons, ← h.shutdown]
    by_cases hshutdown : c.shutdownRequested w = true
    · rw [if_pos hshutdown, if_pos hshutdown]
      rfl
    · rw [if_neg hshutdown, if_neg hshutdown, ← h.effect_processPartition]
      dsimp only [seen]
      rw [← ih]
      rfl

/-- A cycle shows a cycle on any state on which the listing would have been the same. -/
theorem effect_runCycle (h : c.Shows view c') {tag : String} {w : ω} {v : υ}
    (hlist : seen view (c.ledger.list tag w) = c'.ledger.list tag v) :
    seen view ((c.runCycle horizon tag).effect w) = (c'.runCycle horizon tag).effect v := by
  rw [Collaborators.effect_runCycle, Collaborators.effect_runCycle, ← hlist]
  refine seen_following fun objects w₁ => ?_
  rw [← h.effect_processAll]
  rfl

/-- Runs show runs, if what is done between their cycles does. -/
theorem after (h : c.Shows view c') {before : Nat → ω → ω} {before' : Nat → υ → υ}
    (hbefore : ∀ n w, view (before n w) = before' n (view w)) {tag : String}
    (hlist : ∀ w, seen view (c.ledger.list tag w) = c'.ledger.list tag (view w)) (n : Nat)
    (w : ω) : view (c.after before horizon tag n w) = c'.after before' horizon tag n (view w) := by
  induction n with
  | zero => rfl
  | succ n ih =>
    unfold Collaborators.after
    rw [← ih, ← hbefore]
    exact congrArg Prod.snd (h.effect_runCycle horizon (hlist _))

end Collaborators.Shows

/-! ## A recorded server -/

namespace Server

variable (S : Server σ)

theorem seen_send (statement : Statement) (s : σ × List Exchange) :
    seen Prod.fst (S.recorded.send statement s) = S.send statement s.1 := by
  have hexchange : S.recorded.exchange statement s = ((S.exchange statement s.1).1,
    (S.exchange statement s.1).2, s.2 ++ [⟨statement, (S.exchange statement s.1).1⟩]) := rfl
  rw [send, send, hexchange]
  rcases S.exchange statement s.1 with ⟨_ | _, s₁⟩ <;> rfl

theorem seen_ask (undertaking : String) (statement : Statement) (read : Reply → Except Cause α)
    (s : σ × List Exchange) :
    seen Prod.fst (S.recorded.ask undertaking statement read s) =
      S.ask undertaking statement read s.1 := by
  rw [ask, ask, ← S.seen_send]
  rcases S.recorded.send statement s with ⟨_ | _, s₁⟩ <;> rfl

theorem seen_change (undertaking : String) (statement : Statement) (s : σ × List Exchange) :
    seen Prod.fst (S.recorded.change undertaking statement s) =
      S.change undertaking statement s.1 :=
  S.seen_ask undertaking statement (fun reply => .ok reply.affected) s

/-- A call that is made unless there is nothing to make it for. -/
theorem seen_unless {items : List β} {a : α} {f : Call (σ × List Exchange) α} {g : Call σ α}
    {s : σ × List Exchange} (h : seen Prod.fst (f s) = g s.1) :
    seen Prod.fst ((if items.isEmpty then fun s => (.ok a, s) else f) s) =
      (if items.isEmpty then fun s => (.ok a, s) else g) s.1 := by
  by_cases hitems : items.isEmpty
  · rw [if_pos hitems, if_pos hitems]
    rfl
  · rwa [if_neg hitems, if_neg hitems]

theorem seen_markObjects (ids : List Int) (s : σ × List Exchange) :
    seen Prod.fst (S.recorded.markObjects ids s) = S.markObjects ids s.1 :=
  seen_unless (S.seen_change _ _ s)

theorem seen_selectEvents (fingerprints : List Fingerprint) (s : σ × List Exchange) :
    seen Prod.fst (S.recorded.selectEvents fingerprints s) = S.selectEvents fingerprints s.1 :=
  seen_unless (S.seen_ask _ _ _ s)

theorem seen_updateEvents (updates : List TimestampUpdate) (s : σ × List Exchange) :
    seen Prod.fst (S.recorded.updateEvents updates s) = S.updateEvents updates s.1 :=
  seen_unless (S.seen_change _ _ s)

theorem seen_deleteEvents (ids : List Int) (s : σ × List Exchange) :
    seen Prod.fst (S.recorded.deleteEvents ids s) = S.deleteEvents ids s.1 :=
  seen_unless (S.seen_change _ _ s)

theorem seen_insertChunks : ∀ (chunks : List (List Event)) (s : σ × List Exchange),
    seen Prod.fst (S.recorded.insertChunks chunks s) = S.insertChunks chunks s.1
  | [], _ => rfl
  | chunk :: chunks, s => by
      rw [insertChunks, insertChunks]
      dsimp only
      rw [← S.seen_change]
      rcases S.recorded.change "insert trip_update_events" (.insertEvents chunk) s
        with ⟨_ | rows, s₁⟩
      · rfl
      · dsimp only [seen]
        rw [← seen_insertChunks chunks s₁]
        rcases S.recorded.insertChunks chunks s₁ with ⟨_ | _, s₂⟩ <;> rfl

theorem seen_insertEvents (events : List Event) (s : σ × List Exchange) :
    seen Prod.fst (S.recorded.insertEvents events s) = S.insertEvents events s.1 := by
  rw [insertEvents, insertEvents]
  split
  · rfl
  dsimp only
  rw [← S.seen_send]
  rcases S.recorded.send .beginTransaction s with ⟨_ | _, s₁⟩
  · rfl
  dsimp only [seen]
  rw [← S.seen_insertChunks]
  rcases S.recorded.insertChunks (chunks events) s₁ with ⟨_ | rows, s₂⟩
  · rfl
  dsimp only [seen]
  rw [← S.seen_send]
  rcases S.recorded.send .commit s₂ with ⟨_ | _, s₃⟩ <;> rfl

def unrecorded (w : RecordedWorld σ) : DatabaseWorld σ := ⟨w.server.1, w.engine, w.shutdown⟩

theorem seen_lift {f : Call (σ × List Exchange) α} {g : Call σ α} {w : RecordedWorld σ}
    (h : seen Prod.fst (f w.server) = g w.server.1) :
    seen unrecorded (DatabaseWorld.serverPart.lift f w) =
      DatabaseWorld.serverPart.lift g (unrecorded w) := by
  show ((f w.server).1, unrecorded { w with server := (f w.server).2 }) =
    ((g w.server.1).1, { unrecorded w with server := (g w.server.1).2 })
  rw [← h]
  rfl

theorem shows_recorded (root : String) (stop : DatabaseWorld σ → Bool) :
    Collaborators.Shows unrecorded (recordedCollaborators S root fun w => stop (unrecorded w))
      { DatabaseWorld.collaborators S root with shutdownRequested := stop } where
  store :=
    { select fingerprints w := seen_lift (S.seen_selectEvents fingerprints w.server)
      update updates w := seen_lift (S.seen_updateEvents updates w.server)
      delete ids w := seen_lift (S.seen_deleteEvents ids w.server)
      insert events w := seen_lift (S.seen_insertEvents events w.server) }
  load _ _ := rfl
  mark ids w := seen_lift (S.seen_markObjects ids w.server)
  shutdown _ := rfl

/-- Writing a cycle down does not change it. -/
theorem runCycle_recorded (root : String) (stop : DatabaseWorld σ → Bool) (horizon : Int)
    (tag : String) (w : RecordedWorld σ) :
    seen unrecorded (((recordedCollaborators S root fun w => stop (unrecorded w)).runCycle
        horizon tag).effect w) =
      (({ DatabaseWorld.collaborators S root with shutdownRequested := stop } :
        Collaborators (DatabaseWorld σ)).runCycle horizon tag).effect (unrecorded w) :=
  (S.shows_recorded root stop).effect_runCycle horizon (seen_lift (S.seen_ask _ _ _ w.server))

end Server

/-! ## Interference between cycles -/

/-- Cycles of the collaborators in memory, with new settings before each of them. -/
def MemoryWorld.cycles (settings : Nat → MemoryWorld → MemoryWorld) (horizon : Int) (tag : String) :
    Nat → MemoryWorld → List Outcome × MemoryWorld
  | 0, m => ([], m)
  | n + 1, m =>
    let past := cycles settings horizon tag n m
    let last := (collaborators.runCycle horizon tag).effect (settings (n + 1) past.2)
    (past.1 ++ cycleOutcomes last.1, last.2)

namespace Interference

open DisturbedWorld

variable (i : Interference)

/-- What happens before the listings, and nothing else. -/
def betweenCycles : Interference where
  act
    | cycle, 0, m => i.act cycle 0 m
    | _, _ + 1, m => m
  rows_act cycle call m := by
    cases call with
    | zero => exact i.rows_act cycle 0 m
    | succ => rfl
  batches_act cycle call m := by
    cases call with
    | zero => exact i.batches_act cycle 0 m
    | succ => rfl
  table_act cycle call m := by
    cases call with
    | zero => exact i.table_act cycle 0 m
    | succ => rfl

theorem shows_betweenCycles :
    Collaborators.Shows world i.betweenCycles.collaborators MemoryWorld.collaborators where
  store := ⟨fun _ _ => rfl, fun _ _ => rfl, fun _ _ => rfl, fun _ _ => rfl⟩
  load _ _ := rfl
  mark _ _ := rfl
  shutdown _ := rfl

theorem seen_list (tag : String) (w : DisturbedWorld) :
    seen world (i.betweenCycles.collaborators.ledger.list tag w) =
      MemoryWorld.collaborators.ledger.list tag (i.act (w.cycle + 1) 0 w.world) := rfl

/-- If all that happens is new settings for each cycle, a run of a feed is a run of the
collaborators in memory. -/
theorem run_betweenCycles (F : Feed) (s : MemoryStore) : ∀ n,
    seen world (F.run i.betweenCycles s n) =
      MemoryWorld.cycles (fun cycle => i.act cycle 0) F.horizon F.tag n (F.start s).world
  | 0 => rfl
  | n + 1 => by
      have hlist := i.seen_list F.tag (F.run i.betweenCycles s n).2
      rw [Progress.cycle_run] at hlist
      have hlast := i.shows_betweenCycles.effect_runCycle F.horizon hlist
      rw [MemoryWorld.cycles, ← run_betweenCycles F s n]
      dsimp only [seen]
      rw [← hlast]
      rfl

end Interference

end StopArrivals
