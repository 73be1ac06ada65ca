import StopArrivals.Proofs.Feed
import StopArrivals.Proofs.Interference

/-!
# What cycles achieve

Cycles run one after the other on a world in memory, under any interference. `Progress` is what
every one of them keeps: the ledger is marked for exactly those folders that were reported as
processed, none of them twice; what these folders had to say has arrived in the event table; and the
table descends from the one at the start. It is kept by each partition (`Progress.partition`), and
so by a cycle and by a run.
-/

namespace StopArrivals

variable {ω : Type}

/-! ## Runs -/

/-- The outcomes of a cycle; one that could not list its objects has none. -/
def cycleOutcomes : Except Cause CycleReport → List Outcome
  | .ok report => report.outcomes
  | .error _ => []

/-- The outcomes of some cycles one after the other, and the world they leave. -/
def Collaborators.cycles (c : Collaborators ω) (horizon : Int) (tag : String) :
    Nat → ω → List Outcome × ω
  | 0, w => ([], w)
  | n + 1, w =>
    let past := c.cycles horizon tag n w
    let last := (c.runCycle horizon tag).effect past.2
    (past.1 ++ cycleOutcomes last.1, last.2)

/-- The state after some cycles. Something may be done to it before each of them. -/
def Collaborators.after (c : Collaborators ω) (before : Nat → ω → ω) (horizon : Int)
    (tag : String) : Nat → ω → ω
  | 0, w => w
  | n + 1, w =>
    ((c.runCycle horizon tag).effect (before n (c.after before horizon tag n w))).2

def acknowledged (outcomes : List Outcome) : List String :=
  (outcomes.filter Outcome.isProcessed).map Outcome.partition

theorem acknowledged_append (a b : List Outcome) :
    acknowledged (a ++ b) = acknowledged a ++ acknowledged b := by
  rw [acknowledged, List.filter_append, List.map_append, ← acknowledged, ← acknowledged]

theorem acknowledged_of_left {outcome : Outcome} (h : outcome.isProcessed = false) :
    acknowledged [outcome] = [] := by
  rw [acknowledged, List.filter_cons_of_neg (by rw [h]; exact Bool.false_ne_true)]
  rfl

namespace Feed

/-- The ledger of the feed with nothing marked, its files, and some stored events. -/
def start (F : Feed) (s : MemoryStore) : DisturbedWorld :=
  ⟨⟨MemoryLedger.ofPaths F.paths, F.batches, s, false, none⟩, 0, 0⟩

def run (F : Feed) (i : Interference) (s : MemoryStore) (n : Nat) : List Outcome × DisturbedWorld :=
  i.collaborators.cycles F.horizon F.tag n (F.start s)

end Feed

def DisturbedWorld.Marked (w : DisturbedWorld) (o : SourceObject) : Prop := ⟨o, true⟩ ∈ w.rows

/-! ## Progress -/

open Interference

/-- Some folders of a feed are done, starting from a table. -/
structure Progress (F : Feed) (t₀ : EventTable) (done : List String) (w : DisturbedWorld) :
    Prop where
  rows : w.rows = F.ledgerRows done
  batches : w.batches = F.batches
  nodup : done.Nodup
  arrived : ∀ folder ∈ done, ∃ events, F.events folder = .ok events ∧ ∀ e ∈ events, w.table.Holds e
  lineage : EventTable.Lineage F.Estimate t₀ w.table

namespace Progress

variable {F : Feed} {t₀ : EventTable} {done : List String} {w : DisturbedWorld} {i : Interference}

theorem start (F : Feed) (s : MemoryStore) : Progress F s.table [] (F.start s) where
  rows := F.ledgerRows_nil.symm
  batches := rfl
  nodup := List.nodup_nil
  arrived _ h := absurd h List.not_mem_nil
  lineage := .refl _ _

/-- The ledger, the files, and the table are all that counts. -/
theorem unchanged (h : Progress F t₀ done w) {w' : DisturbedWorld} (hrows : w'.rows = w.rows)
    (hbatches : w'.batches = w.batches) (htable : w'.table = w.table) :
    Progress F t₀ done w' where
  rows := hrows.trans h.rows
  batches := hbatches.trans h.batches
  nodup := h.nodup
  arrived := htable ▸ h.arrived
  lineage := htable ▸ h.lineage

/-- A merge for one folder, done or stopped halfway. -/
theorem stage (h : Progress F t₀ done w) {folder : String} {events : List Event}
    {t : EventTable} (hevents : F.events folder = .ok events) (hstage : w.table.Stage events t) :
    (∀ folder ∈ done, ∃ events, F.events folder = .ok events ∧ ∀ e ∈ events, t.Holds e) ∧
      EventTable.Lineage F.Estimate t₀ t := by
  refine ⟨fun other hother => ?_, h.lineage.stage hstage fun e he => ⟨folder, events, hevents, he⟩⟩
  obtain ⟨there, hthere, hholds⟩ := h.arrived other hother
  exact ⟨there, hthere, fun e he => (hholds e he).stage hstage⟩

theorem partition (h : Progress F t₀ done w) {folder : String} (hnew : folder ∉ done)
    {result : Outcome × DisturbedWorld}
    (hends : i.PartitionEnds F.horizon (F.partition folder) w result) :
    Progress F t₀ (done ++ acknowledged [result.1]) result.2 := by
  have hprepared : prepared F.horizon (w.batches.load tripUpdateColumns tripUpdateFilters
      (F.partition folder).paths) = F.events folder := by
    rw [h.batches, Feed.events]
  have hfiles := hends.onward.batches.trans h.batches
  cases hends with
  | @processed events _ _ w' honward hevents hrows htable =>
    rw [hprepared] at hevents
    obtain ⟨harrived, hlineage⟩ := h.stage hevents EventTable.Stage.merged
    rw [← htable] at harrived hlineage
    refine ⟨?_, hfiles, ?_, fun other hother => ?_, hlineage⟩
    · rw [hrows, h.rows, Feed.markRow_ledgerRows]
      rfl
    · exact h.nodup.append (List.nodup_singleton _) (List.disjoint_singleton.mpr hnew)
    · rcases List.mem_append.mp hother with hother | hother
      · exact harrived other hother
      · obtain rfl := List.mem_singleton.mp hother
        refine ⟨events, hevents, fun e he => ?_⟩
        rw [htable]
        exact EventTable.holds_merged he
  | bad hsame houtcome =>
    rw [acknowledged_of_left houtcome, List.append_nil]
    exact h.unchanged hsame.rows hsame.onward.batches hsame.table
  | disturbed honward houtcome hevents hrows hstage =>
    rw [acknowledged_of_left houtcome, List.append_nil]
    obtain ⟨harrived, hlineage⟩ := h.stage (hprepared ▸ hevents) hstage
    exact ⟨hrows.trans h.rows, hfiles, h.nodup, harrived, hlineage⟩

theorem eq_of_acknowledged {p : Partition} {result : Outcome × DisturbedWorld}
    (hends : i.PartitionEnds F.horizon p w result) {folder : String}
    (h : folder ∈ acknowledged [result.1]) : folder = p.key := by
  cases hends with
  | processed => exact List.mem_singleton.mp h
  | bad _ houtcome | disturbed _ houtcome =>
    rw [acknowledged_of_left houtcome] at h
    exact absurd h List.not_mem_nil

theorem processAll : ∀ {ps : List Partition} {done : List String} {w : DisturbedWorld},
    Progress F t₀ done w → (∀ p ∈ ps, p = F.partition p.key ∧ p.key ∉ done) →
      (ps.map Partition.key).Nodup →
      Progress F t₀
        (done ++ acknowledged ((i.collaborators.processAll F.horizon ps).effect w).1.outcomes)
        ((i.collaborators.processAll F.horizon ps).effect w).2
  | [], done, w, h, _, _ => by
      show Progress F t₀ (done ++ []) w
      rwa [List.append_nil]
  | p :: ps, done, w, h, hlisted, hkeys => by
      rw [Collaborators.effect_processAll_cons]
      by_cases hshutdown : i.collaborators.shutdownRequested w = true
      · rw [if_pos hshutdown]
        show Progress F t₀ (done ++ []) w
        rwa [List.append_nil]
      rw [if_neg hshutdown]
      obtain ⟨hp, hnew⟩ := hlisted p (List.mem_cons_self ..)
      obtain ⟨hkey, hrest⟩ := List.nodup_cons.mp hkeys
      have hends := i.processPartition_ends F.horizon p w
      generalize (i.collaborators.processPartition F.horizon p).effect w = first at hends ⊢
      have hfirst : Progress F t₀ (done ++ acknowledged [first.1]) first.2 :=
        h.partition hnew (hp ▸ hends)
      have hall := hfirst.processAll (fun q hq => ?_) hrest
      · rw [List.append_assoc, ← acknowledged_append] at hall
        exact hall
      · obtain ⟨hqpartition, hqnew⟩ := hlisted q (List.mem_cons_of_mem _ hq)
        refine ⟨hqpartition, fun hmem => ?_⟩
        rcases List.mem_append.mp hmem with hmem | hmem
        · exact hqnew hmem
        · exact hkey (eq_of_acknowledged hends hmem ▸ List.mem_map_of_mem hq)

/-- A listing gives the tagged objects of the folders that are not done. -/
theorem objects_of_listed (h : Progress F t₀ done w)
    {result : Except Cause (List SourceObject) × DisturbedWorld}
    (hlisted : i.Listed F.tag w result) {objects : List SourceObject}
    (hobjects : result.1 = .ok objects) :
    objects = F.tagged.filter fun o => folderOf o.path ∉ done := by
  obtain ⟨l, hrows, hpending⟩ := hlisted.objects objects hobjects
  rw [hpending]
  exact Feed.pending_ledgerRows (hrows.trans h.rows)

theorem cycle (h : Progress F t₀ done w) :
    Progress F t₀
      (done ++ acknowledged
        (cycleOutcomes ((i.collaborators.runCycle F.horizon F.tag).effect w).1))
      ((i.collaborators.runCycle F.horizon F.tag).effect w).2 := by
  rw [Collaborators.effect_runCycle]
  have hlisted := i.list_listed F.tag w
  have hbegun := h.unchanged hlisted.rows hlisted.batches hlisted.table
  generalize i.collaborators.ledger.list F.tag w = listed at hlisted hbegun
  rcases listed with ⟨cause | objects, w₁⟩
  · show Progress F t₀ (done ++ []) w₁
    rwa [List.append_nil]
  · have hobjects := h.objects_of_listed hlisted rfl
    rw [following_ok]
    refine hbegun.processAll (fun p hp => ?_) (nodup_keys_groupPartitions objects)
    exact Feed.eq_partition_of_listed (hobjects ▸ hp)

theorem run (F : Feed) (i : Interference) (s : MemoryStore) : ∀ n,
    Progress F s.table (acknowledged (F.run i s n).1) (F.run i s n).2
  | 0 => start F s
  | n + 1 => by
      have hcycle := (run F i s n).cycle (i := i)
      rw [← acknowledged_append] at hcycle
      exact hcycle

/-! ## Quiet times -/

theorem onward_processAll (horizon : Int) : ∀ (ps : List Partition) (w : DisturbedWorld),
    i.Onward w ((i.collaborators.processAll horizon ps).effect w).2
  | [], w => .refl w
  | p :: ps, w => by
      rw [Collaborators.effect_processAll_cons]
      by_cases hshutdown : i.collaborators.shutdownRequested w = true
      · rw [if_pos hshutdown]
        exact .refl w
      · rw [if_neg hshutdown]
        exact (i.processPartition_ends horizon p w).onward.trans (onward_processAll horizon ps _)

theorem acknowledged_of_quiet {ps : List Partition} {w : DisturbedWorld}
    (hbatches : w.batches = F.batches) (hquiet : i.QuietIn w.cycle)
    (hshutdown : w.shutdown = false) (hfull : ∀ p ∈ ps, p = F.partition p.key) {q : Partition}
    (hq : q ∈ ps) (hgood : ∃ events, F.events q.key = .ok events) :
    q.key ∈ acknowledged ((i.collaborators.processAll F.horizon ps).effect w).1.outcomes := by
  induction ps generalizing w with
  | nil => exact absurd hq List.not_mem_nil
  | cons p ps ih =>
      rw [Collaborators.effect_processAll_cons]
      have hgo : ¬i.collaborators.shutdownRequested w = true := by
        rw [show i.collaborators.shutdownRequested w = false from hshutdown]
        exact Bool.false_ne_true
      rw [if_neg hgo]
      have hends := i.processPartition_ends F.horizon p w
      generalize (i.collaborators.processPartition F.horizon p).effect w = first at hends ⊢
      have honward := hends.onward
      show q.key ∈ acknowledged ([first.1] ++ _)
      rw [acknowledged_append, List.mem_append]
      rcases List.mem_cons.mp hq with rfl | hq
      · left
        obtain ⟨events, hevents⟩ := hgood
        have hprepared : prepared F.horizon (w.batches.load tripUpdateColumns tripUpdateFilters
            q.paths) = .ok events := by
          rw [hbatches, hfull q (List.mem_cons_self ..)]
          exact hevents
        cases hends with
        | processed => exact List.mem_singleton_self _
        | bad _ _ hfault =>
          rw [hfault] at hprepared
          cases hprepared
        | disturbed _ _ _ _ _ hloud => exact absurd hquiet hloud
      · exact .inr (ih (honward.batches.trans hbatches) (honward.cycle ▸ hquiet)
          (honward.shutdown hquiet hshutdown) (fun p hp => hfull p (List.mem_cons_of_mem _ hp)) hq)

theorem cycle_of_quiet (h : Progress F t₀ done w) (hquiet : i.QuietIn (w.cycle + 1))
    {o : SourceObject} (ho : o ∈ F.tagged)
    (hgood : ∃ events, F.events (folderOf o.path) = .ok events) :
    folderOf o.path ∈ done ++ acknowledged
      (cycleOutcomes ((i.collaborators.runCycle F.horizon F.tag).effect w).1) := by
  by_cases hdone : folderOf o.path ∈ done
  · exact List.mem_append_left _ hdone
  refine List.mem_append_right _ ?_
  rw [Collaborators.effect_runCycle]
  have hlisted := i.list_listed F.tag w
  obtain ⟨⟨objects, hok⟩, hshutdown⟩ := hlisted.quiet hquiet
  have hobjects := h.objects_of_listed hlisted hok
  generalize i.collaborators.ledger.list F.tag w = listed at hlisted hok hshutdown
  obtain ⟨_, w₁⟩ := listed
  obtain rfl := hok
  rw [following_ok]
  have ho : o ∈ objects := hobjects ▸ List.mem_filter.mpr ⟨ho, decide_eq_true hdone⟩
  exact acknowledged_of_quiet (hlisted.batches.trans h.batches) (hlisted.cycle ▸ hquiet) hshutdown
    (fun p hp => (Feed.eq_partition_of_listed (hobjects ▸ hp)).1) (exists_partition ho) hgood

/-- The cycles of a run are counted from one. -/
theorem cycle_run (F : Feed) (i : Interference) (s : MemoryStore) : ∀ n,
    (F.run i s n).2.cycle = n
  | 0 => rfl
  | n + 1 => by
      show ((i.collaborators.runCycle F.horizon F.tag).effect (F.run i s n).2).2.cycle = n + 1
      rw [Collaborators.effect_runCycle]
      have hcycle := (i.list_listed F.tag (F.run i s n).2).cycle
      rw [cycle_run F i s n] at hcycle
      generalize i.collaborators.ledger.list F.tag (F.run i s n).2 = listed at hcycle ⊢
      rcases listed with ⟨cause | objects, w₁⟩
      · exact hcycle
      · have honward := onward_processAll (i := i) F.horizon (groupPartitions objects) w₁
        exact honward.cycle.trans hcycle

end Progress

/-! ## What is marked -/

namespace Feed

variable {F : Feed} {i : Interference} {s : MemoryStore}

theorem marked_iff {n : Nat} {o : SourceObject} : (F.run i s n).2.Marked o ↔
    o ∈ F.tagged ∧ folderOf o.path ∈ acknowledged (F.run i s n).1 := by
  rw [DisturbedWorld.Marked, (Progress.run F i s n).rows, mem_ledgerRows]

/-- One quiet cycle is enough. -/
theorem marked_of_quiet {n : Nat} (hquiet : i.QuietIn (n + 1)) {o : SourceObject}
    (ho : o ∈ F.tagged) (hgood : ∃ events, F.events (folderOf o.path) = .ok events) :
    (F.run i s (n + 1)).2.Marked o := by
  refine marked_iff.mpr ⟨ho, ?_⟩
  have hprogress := Progress.run F i s n
  have hcycle : i.QuietIn ((F.run i s n).2.cycle + 1) := by
    rwa [Progress.cycle_run]
  have hmem := hprogress.cycle_of_quiet hcycle ho hgood
  rw [← acknowledged_append] at hmem
  exact hmem

end Feed

end StopArrivals
