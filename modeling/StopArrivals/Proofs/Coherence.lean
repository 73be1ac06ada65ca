import StopArrivals.Proofs.CallLog
import StopArrivals.Proofs.Candidates
import StopArrivals.Proofs.Interference
import StopArrivals.Proofs.Retention

/-!
# Rows that agree with themselves

Nothing in the event table checks again what extraction has checked: that an event has the
fingerprint of its visit, that it does not move, that the date of its trip is a day. Rows have it
from the events that they come from, and no merge takes it from them, as merges change nothing but
timestamps.

To speak of all tables that a run leads through, the collaborators are watched: each of their calls
writes down the table that it leaves (`Collaborators.watched`). In all of these tables a row is one
of those at the start, perhaps with another timestamp, or it is coherent; and its timestamp was
there at the start or is an estimate from a file that was loaded (`Interference.rows_coherent`).
-/

namespace StopArrivals

variable {σ ω υ α : Type}

/-! ## What is known of a store through a view -/

namespace EventStore.Shows

variable {view : ω → υ} {S : EventStore ω} {S' : EventStore υ}

theorem obeys (h : S.Shows view S') {R : υ → υ → Prop} (hS : S'.Obeys R) :
    S.Obeys fun w w' => R (view w) (view w') := by
  have hshown : ∀ {α : Type} {x : Except Cause α × ω} {y : Except Cause α × υ} {w : ω},
      seen view x = y → R (view w) y.2 → R (view w) (view x.2) := by
    intro α x y w hxy hy
    rw [← hxy] at hy
    exact hy
  exact
    { refl := fun w => hS.refl (view w)
      trans := hS.trans
      select := fun _ w => hshown (h.select _ w) (hS.select _ (view w))
      update := fun _ w => hshown (h.update _ w) (hS.update _ (view w))
      delete := fun _ w => hshown (h.delete _ w) (hS.delete _ (view w))
      insert := fun _ w => hshown (h.insert _ w) (hS.insert _ (view w)) }

variable {table : υ → EventTable} {moves : Option StatementGroup → υ → υ → Prop}

theorem groupEnds {group : StatementGroup} {work : EventTable → EventTable} {call : Call ω α}
    {call' : Call υ α} {w : ω} (hcall : seen view (call w) = call' (view w))
    (h : GroupEnds table moves group work (view w) (mergeCall group call' (view w))) :
    GroupEnds (fun w => table (view w)) (fun group w w' => moves group (view w) (view w')) group
      work w (mergeCall group call w) := by
  rw [← seen_mergeCall hcall] at h
  generalize mergeCall group call w = result at h ⊢
  obtain ⟨_ | a, w'⟩ := result
  · rcases h with ⟨htable, hmoves⟩
    exact .failed htable hmoves
  · rcases h with _ | ⟨htable, hmoves⟩
    exact .done htable hmoves

theorem keeps (h : S.Shows view S') (hS : S'.Keeps table moves) :
    S.Keeps (fun w => table (view w)) fun group w w' => moves group (view w) (view w') where
  refl w := hS.refl (view w)
  trans := hS.trans
  select fingerprints w := groupEnds (h.select fingerprints w) (hS.select fingerprints (view w))
  rows_of_select {fingerprints w rows w'} heq := by
    have hanswer := h.select fingerprints w
    rw [heq] at hanswer
    exact hS.rows_of_select hanswer.symm
  update updates w := groupEnds (h.update updates w) (hS.update updates (view w))
  delete ids w := groupEnds (h.delete ids w) (hS.delete ids (view w))
  insert {events w} hnew hdistinct := groupEnds (h.insert events w) (hS.insert hnew hdistinct)

end EventStore.Shows

/-! ## Watched collaborators -/

namespace Collaborators

/-- The state, and the tables that the calls have left, the last one last. -/
def watched (table : ω → EventTable) (c : Collaborators ω) :
    Collaborators (ω × List EventTable) where
  ledger :=
    { list := fun tag => watchedCall table (c.ledger.list tag)
      mark := fun ids => watchedCall table (c.ledger.mark ids) }
  batches :=
    { load := fun paths columns filters w =>
        let loaded := c.batches.load paths columns filters w.1
        (loaded.1, (loaded.2.1, w.2 ++ [table loaded.2.1]), loaded.2.2) }
  store := c.store.watched table
  shutdownRequested := fun w => c.shutdownRequested w.1

theorem shows_watched (table : ω → EventTable) (c : Collaborators ω) :
    (c.watched table).Shows Prod.fst c where
  store := c.store.shows_watched table
  load _ _ := rfl
  mark _ _ := rfl
  shutdown _ := rfl

end Collaborators

/-- All tables from the first one on have a property, and the last one is the table now. -/
structure Throughout (P : EventTable → Prop) (table : σ → EventTable) (t₀ : EventTable)
    (w : σ × List EventTable) : Prop where
  all : ∀ t ∈ t₀ :: w.2, P t
  last : (t₀ :: w.2).getLast? = some (table w.1)

namespace Throughout

variable {P Q : EventTable → Prop} {table : σ → EventTable} {t₀ : EventTable}
  {w : σ × List EventTable}

theorem now (h : Throughout P table t₀ w) : P (table w.1) :=
  h.all _ (List.mem_of_getLast? h.last)

theorem append (h : Throughout P table t₀ w) {s : σ} (hs : P (table s)) :
    Throughout P table t₀ (s, w.2 ++ [table s]) where
  all := by
    intro t ht
    rw [← List.cons_append] at ht
    rcases List.mem_append.mp ht with ht | ht
    · exact h.all t ht
    · rwa [List.mem_singleton.mp ht]
  last := by rw [← List.cons_append, List.getLast?_concat]

theorem watchedCall (h : Throughout P table t₀ w) {call : Call σ α}
    (htable : table (call w.1).2 = table w.1) :
    Throughout P table t₀ (StopArrivals.watchedCall table call w).2 :=
  h.append (htable ▸ h.now)

theorem mono (h : Throughout P table t₀ w) (hle : ∀ t, P t → Q t) : Throughout Q table t₀ w :=
  ⟨fun t ht => hle t (h.all t ht), h.last⟩

end Throughout

/-! ## Under interference -/

/-- One of the calls has loaded the files that the event is from. -/
def Delivered (horizon : Int) (b : MemoryBatches) (calls : List CollaboratorCall) (e : Event) :
    Prop :=
  ∃ paths, .load paths tripUpdateColumns tripUpdateFilters ∈ calls ∧ b.Supplies horizon paths e

theorem Delivered.mono {horizon : Int} {b : MemoryBatches} {calls calls' : List CollaboratorCall}
    {e : Event} (h : Delivered horizon b calls e) (hcalls : calls <+: calls') :
    Delivered horizon b calls' e := by
  obtain ⟨paths, hload, hfiles⟩ := h
  exact ⟨paths, hcalls.subset hload, hfiles⟩

/-- A world with the calls and the tables that were written down for it. -/
abbrev WitnessedWorld : Type := (DisturbedWorld × List CollaboratorCall) × List EventTable

namespace WitnessedWorld

abbrev world (v : WitnessedWorld) : DisturbedWorld := v.1.1

abbrev calls (v : WitnessedWorld) : List CollaboratorCall := v.1.2

abbrev tables (v : WitnessedWorld) : List EventTable := v.2

end WitnessedWorld

namespace Interference

open EventTable

variable (i : Interference)

/-- The collaborators under interference. Their calls are written down, and so are the tables that
the calls leave. -/
def witnessed : Collaborators WitnessedWorld :=
  i.collaborators.logged.watched fun v => v.1.table

theorem shows_witnessed : i.witnessed.Shows WitnessedWorld.world i.collaborators where
  store := ⟨fun _ _ => rfl, fun _ _ => rfl, fun _ _ => rfl, fun _ _ => rfl⟩
  load _ _ := rfl
  mark _ _ := rfl
  shutdown _ := rfl

theorem obeys_witnessed : i.witnessed.Obeys fun v v' => v.calls <+: v'.calls :=
  have hlogged := i.collaborators.obeys_logged
  { store := (i.collaborators.logged.store.shows_watched _).obeys hlogged.store
    list := fun tag v => hlogged.list tag v.1
    load := fun p v => hlogged.load p v.1
    mark := fun ids v => hlogged.mark ids v.1 }

theorem loadOf_witnessed (p : Partition) (v : WitnessedWorld) :
    i.witnessed.loadOf p v =
      (v.world.batches.load tripUpdateColumns tripUpdateFilters p.paths,
        ((i.collaborators.loadOf p v.world).2,
          v.calls ++ [.load p.paths tripUpdateColumns tripUpdateFilters]),
        v.tables ++ [(i.collaborators.loadOf p v.world).2.table]) := by
  rw [← (i.loadOf_eq p v.world).1]
  rfl

section

variable {i} {horizon : Int} {estimate : Event → Prop} {t₀ : EventTable} {v : WitnessedWorld}

/-- All tables come from the first one and from estimates. -/
def Descends (estimate : Event → Prop) (t₀ : EventTable) (v : WitnessedWorld) : Prop :=
  Throughout (Lineage estimate t₀) (fun v => v.1.table) t₀ v

theorem descends_loadOf (p : Partition) (h : Descends estimate t₀ v) :
    Descends estimate t₀ (i.witnessed.loadOf p v).2 := by
  rw [loadOf_witnessed]
  refine Throughout.append h ?_
  have htable := (i.loadOf_eq p v.world).2.table
  rw [htable]
  exact h.now

theorem descends_merge {events : List Event} (hestimate : ∀ e ∈ events, estimate e)
    (h : Descends estimate t₀ v) :
    Descends estimate t₀ ((mergeEvents i.witnessed.store events).run.effect v).2 := by
  have hkeeps := i.collaborators.shows_logged.store.keeps i.keeps_table
  have hcarries : Carries (fun v : DisturbedWorld × List CollaboratorCall => v.1.table)
      (Descends estimate t₀) events := by
    intro v s hv hstage
    exact Throughout.append hv (hv.now.stage hstage hestimate)
  exact (hkeeps.watchEnds_merge hcarries h).known_after

theorem descends_mark (ids : List Int) (h : Descends estimate t₀ v) :
    Descends estimate t₀ (i.witnessed.ledger.mark ids v).2 :=
  Throughout.watchedCall h (i.table_mark ids v.world)

theorem descends_processPartition (p : Partition) (h : Descends estimate t₀ v)
    (hestimate : ∀ e, Delivered horizon v.world.batches
      ((i.witnessed.processPartition horizon p).effect v).2.calls e → estimate e) :
    Descends estimate t₀ ((i.witnessed.processPartition horizon p).effect v).2 := by
  -- The load is among the calls from the moment when it is made.
  have hcalls := Collaborators.obeys_after_load horizon i.obeys_witnessed.store
    i.obeys_witnessed.mark p v
  have hentry : .load p.paths tripUpdateColumns tripUpdateFilters ∈
      (i.witnessed.loadOf p v).2.calls := by
    rw [loadOf_witnessed]
    exact List.mem_append_right _ (List.mem_singleton_self _)
  have hsupplied : ∀ e, v.world.batches.Supplies horizon p.paths e → estimate e := by
    intro e he
    exact hestimate e ⟨p.paths, hcalls.subset hentry, he⟩
  have hloaded : Descends estimate t₀ (i.witnessed.loadOf p v).2 := descends_loadOf p h
  have hanswer := congrArg Prod.fst (i.loadOf_witnessed p v)
  rw [Collaborators.effect_processPartition, Collaborators.effect_loadAndMerge, hanswer]
  generalize (i.witnessed.loadOf p v).2 = v₁ at hloaded ⊢
  dsimp only
  cases hevents : prepared horizon
      (v.world.batches.load tripUpdateColumns tripUpdateFilters p.paths) with
  | error fault => exact hloaded
  | ok events =>
    rw [following_ok]
    have hmerge : Descends estimate t₀
        ((mergeEvents i.witnessed.store events).run.effect v₁).2 := by
      refine descends_merge ?_ hloaded
      intro e he
      exact hsupplied e (MemoryBatches.supplies_of_prepared hevents he)
    generalize (mergeEvents i.witnessed.store events).run.effect v₁ = merged at hmerge ⊢
    obtain ⟨_ | report, v₂⟩ := merged
    · exact hmerge
    · have hmark : Descends estimate t₀ (i.witnessed.ledger.mark p.ids v₂).2 :=
        descends_mark p.ids hmerge
      dsimp only
      generalize i.witnessed.ledger.mark p.ids v₂ = marked at hmark ⊢
      obtain ⟨_ | n, v₃⟩ := marked
      · exact hmark
      · exact hmark

theorem batches_processPartition (p : Partition) (v : WitnessedWorld) :
    ((i.witnessed.processPartition horizon p).effect v).2.world.batches = v.world.batches := by
  have hplain := congrArg Prod.snd (i.shows_witnessed.effect_processPartition horizon p v)
  dsimp only [seen] at hplain
  rw [hplain]
  exact (i.processPartition_ends horizon p v.world).onward.batches

theorem descends_processAll (ps : List Partition) (h : Descends estimate t₀ v)
    (hestimate : ∀ e, Delivered horizon v.world.batches
      ((i.witnessed.processAll horizon ps).effect v).2.calls e → estimate e) :
    Descends estimate t₀ ((i.witnessed.processAll horizon ps).effect v).2 := by
  induction ps generalizing v with
  | nil => exact h
  | cons p ps ih =>
    rw [Collaborators.effect_processAll_cons] at hestimate ⊢
    split at hestimate
    · next hshutdown =>
      rw [if_pos hshutdown]
      exact h
    · next hshutdown =>
      rw [if_neg hshutdown]
      have hlater := i.obeys_witnessed.processAll horizon ps
        ((i.witnessed.processPartition horizon p).effect v).2
      refine ih (descends_processPartition p h ?_) ?_
      · intro e he
        exact hestimate e (he.mono hlater)
      · intro e he
        rw [batches_processPartition] at he
        exact hestimate e he

theorem descends_runCycle (tag : String) (h : Descends estimate t₀ v)
    (hestimate : ∀ e, Delivered horizon v.world.batches
      ((i.witnessed.runCycle horizon tag).effect v).2.calls e → estimate e) :
    Descends estimate t₀ ((i.witnessed.runCycle horizon tag).effect v).2 := by
  have hlisted := i.list_listed tag v.world
  have hlist : Descends estimate t₀ (i.witnessed.ledger.list tag v).2 :=
    Throughout.watchedCall h hlisted.table
  have hbatches : (i.witnessed.ledger.list tag v).2.world.batches = v.world.batches :=
    hlisted.batches
  rw [Collaborators.effect_runCycle] at hestimate ⊢
  generalize i.witnessed.ledger.list tag v = listed at hlist hbatches hestimate ⊢
  obtain ⟨_ | objects, v₁⟩ := listed
  · exact hlist
  · refine descends_processAll _ hlist ?_
    intro e he
    rw [hbatches] at he
    exact hestimate e he

end

/-! ## Runs -/

variable (files : Nat → MemoryBatches) (horizon : Int) (tag : String) (w : DisturbedWorld)

/-- The world after some cycles. Before each of them the files may change. -/
def worldAfter (n : Nat) : DisturbedWorld :=
  i.collaborators.after (fun k w => { w with world.batches := files k }) horizon tag n w

/-- The same, with the calls of the last cycle, and the tables after all calls so far. -/
def witnessedAfter (n : Nat) : WitnessedWorld :=
  i.witnessed.after (fun k v => (({ v.world with world.batches := files k }, []), v.tables))
    horizon tag n ((w, []), [])

/-- An event from a file that one of some cycles has loaded. -/
def Foreseen (n : Nat) (e : Event) : Prop :=
  ∃ k < n, Delivered horizon (files k) (i.witnessedAfter files horizon tag w (k + 1)).calls e

theorem Foreseen.coherent {i : Interference} {files : Nat → MemoryBatches} {horizon : Int}
    {tag : String} {w : DisturbedWorld} {n : Nat} {e : Event}
    (h : i.Foreseen files horizon tag w n e) : e.Coherent := by
  obtain ⟨k, -, paths, -, hfiles⟩ := h
  exact MemoryBatches.Supplies.coherent hfiles

theorem descends_witnessedAfter (n : Nat) :
    Descends (i.Foreseen files horizon tag w n) w.table
      (i.witnessedAfter files horizon tag w n) := by
  induction n with
  | zero =>
    refine ⟨?_, rfl⟩
    intro t ht
    obtain rfl := List.mem_singleton.mp ht
    exact .refl _ _
  | succ n ih =>
    have hforeseen : ∀ e, i.Foreseen files horizon tag w n e →
        i.Foreseen files horizon tag w (n + 1) e := by
      rintro e ⟨k, hk, he⟩
      exact ⟨k, by omega, he⟩
    have hbefore := Throughout.mono ih fun t ht => Lineage.mono ht hforeseen
    refine descends_runCycle tag ⟨hbefore.all, hbefore.last⟩ ?_
    intro e he
    exact ⟨n, by omega, he⟩

/-- Watching changes nothing. In all tables that a run leads through, whatever fails and whenever a
shutdown is requested, each row is one of those at the start, except perhaps for its timestamp, or
it is coherent. Its timestamp is that of a row at the start with the same fingerprint, or that of an
event from a loaded file, which is within the horizon after its message. -/
theorem rows_coherent (n : Nat) :
    let reached := i.witnessedAfter files horizon tag w n
    reached.world = i.worldAfter files horizon tag w n ∧
      (w.table :: reached.tables).getLast? = some (i.worldAfter files horizon tag w n).table ∧
      ∀ t ∈ w.table :: reached.tables, ∀ r ∈ t.rows,
        ((∃ x ∈ w.table.rows, Redated x r) ∨ r.event.Coherent) ∧
        ((∃ x ∈ w.table.rows, x.event.fingerprint = r.event.fingerprint ∧
            x.event.timestamp = r.event.timestamp) ∨
          ∃ e, i.Foreseen files horizon tag w n e ∧ e.fingerprint = r.event.fingerprint ∧
            e.timestamp = r.event.timestamp) := by
  intro reached
  have hsame : reached.world = i.worldAfter files horizon tag w n :=
    i.shows_witnessed.after horizon (fun _ _ => rfl) (fun _ => rfl) n ((w, []), [])
  have hdescends := i.descends_witnessedAfter files horizon tag w n
  refine ⟨hsame, hsame ▸ hdescends.last, ?_⟩
  intro t ht r hr
  have hlineage := hdescends.all t ht
  refine ⟨?_, hlineage.dated r hr⟩
  rcases hlineage.origin r hr with hold | ⟨-, e, he, hre⟩
  · exact .inl hold
  · refine .inr ?_
    rw [hre]
    exact he.coherent.redated _

end Interference

end StopArrivals
