import StopArrivals.Proofs.Candidates
import StopArrivals.Proofs.Reports

/-!
# The balance of a merge

A merge of the latest candidates has one event for each fingerprint of the candidates, and each of
them is updated or inserted. Each row that the store had for one of them is updated or deleted. So
the counts of a report can be checked against each other, against the candidates and against the
size of the table (`MergeReport.Balances`). They can in every report of a cycle, whatever is
disturbed around it, for no disturbance reaches the table between the calls of a merge.
-/

namespace StopArrivals

/-- The counts of a merge of candidates with the given fingerprints, and the rows before and after
it. -/
structure MergeReport.Balances (report : MergeReport) (fingerprints : List Fingerprint)
    (before after : List StoredEvent) : Prop where
  candidates : report.candidates = fingerprints.dedup.length
  written : report.updated + report.inserted = report.candidates
  persisted : report.persisted = before.countP fun r => r.event.fingerprint ∈ fingerprints
  met : report.updated + report.deleted = report.persisted
  size : (after.length : Int) - before.length = report.inserted - report.deleted

/-! ## One merge -/

section

variable (t : EventTable) (candidates : List Candidate)

theorem dedup_fingerprints : ((latestEvents candidates).map Event.fingerprint).dedup.length =
    (latestEvents candidates).length := by
  have hnodup : ((latestEvents candidates).map Event.fingerprint).Nodup :=
    (List.pairwise_map.mpr (pairwise_latestEvents candidates)).nodup
  rw [hnodup.dedup, List.length_map]

/-- As many events are kept as there are fingerprints. -/
theorem length_latestEvents : (latestEvents candidates).length =
    (candidates.map (·.event.fingerprint)).dedup.length := by
  rw [← dedup_fingerprints]
  refine List.Perm.length_eq ((List.perm_ext_iff_of_nodup (List.nodup_dedup _)
    (List.nodup_dedup _)).mpr fun f => ?_)
  rw [List.mem_dedup, List.mem_dedup, fingerprints_latestEvents]

theorem length_selected : (t.selected (latestEvents candidates)).length =
    t.rows.countP fun r => r.event.fingerprint ∈ candidates.map (·.event.fingerprint) := by
  rw [EventTable.selected, List.countP_eq_length_filter]
  simp only [fingerprints_latestEvents]

theorem balances_reportOf : (t.reportOf (latestEvents candidates)).Balances
    (candidates.map (·.event.fingerprint)) t.rows (t.merged (latestEvents candidates)).rows where
  candidates := length_latestEvents candidates
  written := EventTable.updates_add_inserts.trans (dedup_fingerprints candidates)
  persisted := length_selected t candidates
  met := EventTable.updates_add_deletes
  size := by
    have hrows : (t.merged (latestEvents candidates)).rows.length + _ = _ :=
      EventTable.length_merged
    simp only [EventTable.reportOf]
    omega

end

theorem EventStore.Keeps.balances {σ : Type} {S : EventStore σ} {table : σ → EventTable}
    {moves : Option StatementGroup → σ → σ → Prop} (h : S.Keeps table moves)
    (hcounts : S.Counts table) {candidates : List Candidate} {s s' : σ} {report : MergeReport}
    (hmerge : (mergeEvents S (latestEvents candidates)).run.effect s = (.ok report, s')) :
    report.Balances (candidates.map (·.event.fingerprint)) (table s).rows (table s').rows := by
  have hends := h.merge_ends (latestEvents candidates) s
  rw [hmerge] at hends
  cases hends with
  | done htable =>
    rw [htable, h.report_eq hcounts hmerge]
    exact balances_reportOf (table s) candidates

/-! ## Cycles -/

namespace Collaborators

variable {ω : Type} (c : Collaborators ω) (horizon : Int)

/-- The partitions that are processed, each with the state in which it is. -/
def visits : List Partition → ω → List (Partition × ω)
  | [], _ => []
  | p :: ps, w =>
    if c.shutdownRequested w then []
    else (p, w) :: visits ps ((c.processPartition horizon p).effect w).2

theorem outcomes_processAll (ps : List Partition) (w : ω) :
    ((c.processAll horizon ps).effect w).1.outcomes =
      (c.visits horizon ps w).map fun v => ((c.processPartition horizon v.1).effect v.2).1 := by
  induction ps generalizing w with
  | nil => rfl
  | cons p ps ih =>
    rw [effect_processAll_cons, visits]
    split
    · rfl
    · rw [List.map_cons, ← ih]

/-- The visits of a cycle; without a listing there are none. -/
def cycleVisits (tag : String) (w : ω) : List (Partition × ω) :=
  match c.ledger.list tag w with
  | (.error _, _) => []
  | (.ok objects, w) => c.visits horizon (groupPartitions objects) w

theorem outcomes_runCycle (tag : String) (w : ω) :
    cycleOutcomes ((c.runCycle horizon tag).effect w).1 =
      (c.cycleVisits horizon tag w).map fun v =>
        ((c.processPartition horizon v.1).effect v.2).1 := by
  rw [effect_runCycle, cycleVisits]
  obtain ⟨_ | objects, w₁⟩ := c.ledger.list tag w
  · rfl
  · exact c.outcomes_processAll horizon _ w₁

end Collaborators

namespace Interference

variable (i : Interference) (horizon : Int)

/-- The report that a partition ends with, if it has one, balances what its files hold with the
rows that the table has gained or lost. -/
def BalancedVisit (v : Partition × DisturbedWorld) (o : Outcome) : Prop :=
  let ended := (i.collaborators.processPartition horizon v.1).effect v.2
  o = ended.1 ∧ ∀ report, o.report? = some report → ∃ rows extraction,
    v.2.batches.load tripUpdateColumns tripUpdateFilters v.1.paths = .ok rows ∧
      (extract horizon rows).1 = .ok extraction ∧
      report.Balances (extraction.candidates.map (·.event.fingerprint)) v.2.table.rows
        ended.2.table.rows

theorem balancedVisit (p : Partition) (w : DisturbedWorld) :
    i.BalancedVisit horizon (p, w) ((i.collaborators.processPartition horizon p).effect w).1 := by
  refine ⟨rfl, fun report hreport => ?_⟩
  have hends := i.processPartition_reports horizon p w
  dsimp only at hreport ⊢
  generalize (i.collaborators.processPartition horizon p).effect w = ended at hreport hends ⊢
  cases hends with
  | silent _ _ hnone =>
    rw [hnone] at hreport
    cases hreport
  | reported hevents hsome htable =>
    obtain ⟨rows, extraction, hrows, hextract, rfl⟩ := exists_of_prepared_eq_ok hevents
    obtain rfl := Option.some.inj (hsome.symm.trans hreport)
    refine ⟨rows, extraction, hrows, hextract, ?_⟩
    rw [htable]
    exact balances_reportOf w.table extraction.candidates

theorem balancedVisits (tag : String) (w : DisturbedWorld) :
    List.Forall₂ (i.BalancedVisit horizon) (i.collaborators.cycleVisits horizon tag w)
      (cycleOutcomes ((i.collaborators.runCycle horizon tag).effect w).1) := by
  rw [Collaborators.outcomes_runCycle, List.forall₂_map_right_iff]
  exact List.forall₂_same.mpr fun v _ => i.balancedVisit horizon v.1 v.2

end Interference

/-- Every report of a merge balances: by itself on a store in memory, where there is one unless a
failure was set, and as that of any outcome of a cycle. -/
theorem merge_reports_balance :
    (∀ (s : MemoryStore) (candidates : List Candidate), s.failNext = none → ∃ report s',
      (mergeEvents MemoryStore.store (latestEvents candidates)).run.effect s = (.ok report, s')) ∧
    (∀ (s s' : MemoryStore) (candidates : List Candidate) (report : MergeReport),
      (mergeEvents MemoryStore.store (latestEvents candidates)).run.effect s = (.ok report, s') →
        report.Balances (candidates.map (·.event.fingerprint)) s.rows s'.rows) ∧
    ∀ (i : Interference) (horizon : Int) (tag : String) (w : DisturbedWorld),
      List.Forall₂ (i.BalancedVisit horizon) (i.collaborators.cycleVisits horizon tag w)
        (cycleOutcomes ((i.collaborators.runCycle horizon tag).effect w).1) := by
  refine ⟨fun s candidates hs => ?_, fun _ _ _ _ hmerge => ?_,
    fun i horizon tag w => i.balancedVisits horizon tag w⟩
  · obtain ⟨report, s', hmerge, -⟩ := MemoryStore.merge_succeeds hs (latestEvents candidates)
    exact ⟨report, s', hmerge⟩
  · exact MemoryStore.keeps_table.balances MemoryStore.counts hmerge

/-- Of two rows of one fingerprint one is updated and one deleted, and two candidates of another
fingerprint are one event. -/
theorem merge_reports_balance_of_crowded_store :
    let s := MemoryStore.ofEvents [sampleEvent 7 10, sampleEvent 4 5, sampleEvent 7 30]
    let candidates : List Candidate :=
      [⟨sampleEvent 9 25, 1⟩, ⟨sampleEvent 7 20, 1⟩, ⟨sampleEvent 9 20, 2⟩]
    ∃ s', (mergeEvents MemoryStore.store (latestEvents candidates)).run.effect s =
        (.ok ⟨2, 2, 1, 1, 1⟩, s') ∧
      (MergeReport.mk 2 2 1 1 1).Balances (candidates.map (·.event.fingerprint)) s.rows s'.rows := by
  intro s candidates
  have hreport : ((mergeEvents MemoryStore.store (latestEvents candidates)).run.effect s).1 =
      .ok ⟨2, 2, 1, 1, 1⟩ := by
    cbv
  exact ⟨_, Prod.ext hreport rfl, merge_reports_balance.2.1 _ _ _ _ (Prod.ext hreport rfl)⟩

end StopArrivals
