import StopArrivals.Proofs.Convergence
import StopArrivals.Proofs.Resumption

/-!
# What a shutdown costs

A cycle that a shutdown cuts short is compared with the same cycle without the shutdown, and the
cycle after it with a cycle that was never cut (`MemoryWorld.shutdown_costs_nothing`). The first
comparison holds on every world. The second one needs ids that stand for one object each, as they do
in all worlds that cycles lead to (`MemoryWorld.Reachable`), and that nothing is set to fail.
-/

namespace StopArrivals

namespace MemoryWorld

/-! ## Worlds that cycles lead to -/

/-- A world to begin with, and what becomes of it by cycles. Before each of them failures may be set
or called off, a shutdown may be requested or called off, and the files may change. -/
inductive Reachable : MemoryWorld → Prop where
  | start (paths : List String) (batches : MemoryBatches) (store : MemoryStore) :
    Reachable ⟨.ofPaths paths, batches, store, false, none⟩
  | disturbed {m : MemoryWorld} (h : Reachable m) (failNextList failNextMark : Bool)
    (batches : MemoryBatches) (failNext : Option StatementGroup) (shutdown : Bool)
    (shutdownAtLoad : Option Nat) :
    Reachable ⟨{ m.ledger with failNextList, failNextMark }, batches, { m.store with failNext },
      shutdown, shutdownAtLoad⟩
  | cycle {m : MemoryWorld} (h : Reachable m) (horizon : Int) (tag : String) :
    Reachable ((collaborators.runCycle horizon tag).effect m).2

/-- Cycles mark objects and do nothing else to them. -/
theorem obeys_objects : collaborators.Obeys fun m m' =>
    m'.ledger.rows.map LedgerRow.object = m.ledger.rows.map LedgerRow.object where
  store := MemoryStore.store.obeys_within fun _ _ => rfl
  list tag m := by
    change (MemoryLedger.list tag m.ledger).2.rows.map LedgerRow.object = _
    unfold MemoryLedger.list
    split <;> rfl
  load p m := by
    rw [loadOf_eq]
    exact congrArg (fun l : MemoryLedger => l.rows.map LedgerRow.object) m.ledger_countLoad
  mark ids m := by
    change (MemoryLedger.mark ids m.ledger).2.rows.map LedgerRow.object = _
    unfold MemoryLedger.mark
    split
    · rfl
    · exact MemoryLedger.objects_marked ids m.ledger

theorem Reachable.identifies {m : MemoryWorld} (h : m.Reachable) : m.ledger.Identifies := by
  unfold MemoryLedger.Identifies
  induction h with
  | start paths =>
    have hobjects : (MemoryLedger.ofPaths paths).rows.map LedgerRow.object =
        MemoryLedger.numberedObjects 0 paths := by
      unfold MemoryLedger.ofPaths
      rw [List.map_map]
      exact List.map_id _
    rw [hobjects]
    exact Feed.nodup_ids_numberedObjects paths 0
  | disturbed _ _ _ _ _ _ _ ih => exact ih
  | cycle _ horizon tag ih => rwa [obeys_objects.runCycle horizon tag]

/-! ## Cycles on a world -/

section

variable {m : MemoryWorld} (horizon : Int) (tag : String)

theorem list_of_not_failing (h : m.ledger.failNextList = false) :
    collaborators.ledger.list tag m = (.ok (m.ledger.pending tag), m) := by
  change ledgerPart.lift (MemoryLedger.list tag) m = _
  unfold Part.lift
  rw [show ledgerPart.get m = m.ledger from rfl, MemoryLedger.list_succeeds h]
  rfl

theorem effect_runCycle_of_list (h : m.ledger.failNextList = false) :
    (collaborators.runCycle horizon tag).effect m =
      (.ok ((collaborators.processAll horizon (m.partitions tag)).effect m).1,
        ((collaborators.processAll horizon (m.partitions tag)).effect m).2) := by
  rw [Collaborators.effect_runCycle, list_of_not_failing tag h, following_ok]
  rfl

theorem effect_runCycle_logged_of_list (h : m.ledger.failNextList = false) :
    (collaborators.logged.runCycle horizon tag).effect (m, []) =
      (.ok ((collaborators.logged.processAll horizon (m.partitions tag)).effect
          (m, [.list tag])).1,
        ((collaborators.logged.processAll horizon (m.partitions tag)).effect
          (m, [.list tag])).2) := by
  have hlist : collaborators.logged.ledger.list tag (m, []) =
      (.ok (m.ledger.pending tag), m, [.list tag]) := by
    change loggedCall _ _ _ = _
    unfold loggedCall
    rw [list_of_not_failing tag h]
    rfl
  rw [Collaborators.effect_runCycle, hlist, following_ok]
  rfl

/-- Where nothing is set to fail, a cycle that another one has left is as good as the whole. -/
theorem runCycle_after {ps rest : List Partition} (hm : Quiet m) (hids : m.ledger.Identifies)
    (h : m.partitions tag = ps ++ rest) :
    ((collaborators.runCycle horizon tag).effect (collaborators.processEach horizon ps m).2).2 =
      ((collaborators.runCycle horizon tag).effect m).2 := by
  obtain ⟨bad, hquiet, -, -⟩ := partitions_processEach ps [] hm hids
    (fun p hp => absurd hp List.not_mem_nil) h
  rw [effect_runCycle_of_list horizon tag hquiet.list, effect_runCycle_of_list horizon tag hm.list,
    effect_processAll_of_calm horizon _ (calm_of_quiet hquiet),
    effect_processAll_of_calm horizon _ (calm_of_quiet hm)]
  exact resume hm hids h

/-- A cycle processes partitions up to the shutdown, on the world as if there were none. -/
theorem runCycle_cut (h : m.ledger.failNextList = false) :
    ∃ report m' calls,
      (collaborators.logged.runCycle horizon tag).effect (m, []) = (.ok report, m', calls) ∧
      report.skipped = (m.partitions tag).length -
        m.partitionsBeforeShutdown (m.partitions tag).length ∧
      collaborators.logged.processEach horizon
        ((m.partitions tag).take (m.partitionsBeforeShutdown (m.partitions tag).length))
          (m.calm, [.list tag]) = (report.outcomes, m'.calm, calls) := by
  have hcut := effect_processAll_cut horizon (m.partitions tag) (m, [.list tag])
  rw [effect_runCycle_logged_of_list horizon tag h]
  generalize (collaborators.logged.processAll horizon (m.partitions tag)).effect
    (m, [.list tag]) = result at hcut ⊢
  obtain ⟨report, m', calls⟩ := result
  obtain ⟨hreport, hstate⟩ := Prod.mk.inj hcut
  refine ⟨report, m', calls, rfl, congrArg CycleReport.skipped hreport, ?_⟩
  exact Prod.ext (congrArg CycleReport.outcomes hreport).symm hstate.symm

theorem runCycle_calm (h : m.ledger.failNextList = false) :
    (collaborators.logged.runCycle horizon tag).effect (m.calm, []) =
      (.ok ⟨(collaborators.logged.processEach horizon (m.partitions tag)
          (m.calm, [.list tag])).1, 0⟩,
        (collaborators.logged.processEach horizon (m.partitions tag) (m.calm, [.list tag])).2) := by
  have hlist : m.calm.ledger.failNextList = false := h
  rw [effect_runCycle_logged_of_list horizon tag hlist,
    effect_processAll_logged_of_calm horizon _ (calm_calm m)]
  rfl

/-- A cycle that a shutdown cuts short does, and calls for, what the cycle without the shutdown does
for the first of the partitions, all of those before the shutdown and the one that it came in, if
any. It reports the others as skipped. If nothing is set to fail, another cycle leaves the world as
one cycle that is not cut would have done. -/
theorem shutdown_costs_nothing (hm : m.Reachable) (hlist : m.ledger.failNextList = false) :
    ∃ report whole m' m'' calls later,
      (collaborators.runCycle horizon tag).effect m = (.ok report, m') ∧
      (collaborators.logged.runCycle horizon tag).effect (m, []) = (.ok report, m', calls) ∧
      (collaborators.logged.runCycle horizon tag).effect (m.calm, []) =
        (.ok whole, m'', calls ++ later) ∧
      KeysAscend (m.partitions tag) ∧
      whole.outcomes.map Outcome.partition = (m.partitions tag).map Partition.key ∧
      report.outcomes =
        whole.outcomes.take (m.partitionsBeforeShutdown (m.partitions tag).length) ∧
      report.outcomes.length + report.skipped = (m.partitions tag).length ∧
      (collaborators.logged.processAll horizon
        ((m.partitions tag).take (m.partitionsBeforeShutdown (m.partitions tag).length))).effect
          (m.calm, [.list tag]) = (⟨report.outcomes, 0⟩, m'.calm, calls) ∧
      (m.store.failNext = none → m.ledger.failNextMark = false →
        ((collaborators.runCycle horizon tag).effect m'.calm).2 =
          ((collaborators.runCycle horizon tag).effect m.calm).2) := by
  obtain ⟨report, m', calls, hcycle, hskipped, hpart⟩ := runCycle_cut horizon tag hlist
  have hwhole := runCycle_calm horizon tag hlist
  have hcount := m.partitionsBeforeShutdown_le (m.partitions tag).length
  generalize m.partitionsBeforeShutdown (m.partitions tag).length = count at hskipped hpart hcount ⊢
  have hsplit : m.partitions tag =
      (m.partitions tag).take count ++ (m.partitions tag).drop count :=
    (List.take_append_drop ..).symm
  -- The whole cycle goes on where the other one stopped.
  obtain ⟨later, hlater⟩ := collaborators.obeys_logged.processEach horizon
    ((m.partitions tag).drop count) (m'.calm, calls)
  have hall : collaborators.logged.processEach horizon (m.partitions tag) (m.calm, [.list tag]) =
      (report.outcomes ++ (collaborators.logged.processEach horizon
          ((m.partitions tag).drop count) (m'.calm, calls)).1,
        (collaborators.logged.processEach horizon ((m.partitions tag).drop count)
          (m'.calm, calls)).2) := by
    conv_lhs => rw [hsplit]
    rw [Collaborators.processEach_append, hpart]
  generalize collaborators.logged.processEach horizon ((m.partitions tag).drop count)
    (m'.calm, calls) = rest at hlater hall
  obtain ⟨outcomes, m'', log⟩ := rest
  obtain rfl : calls ++ later = log := hlater
  rw [hall] at hwhole
  have hlength : report.outcomes.length = count := by
    have htake := collaborators.logged.length_processEach horizon
      ((m.partitions tag).take count) (m.calm, [.list tag])
    rw [hpart, List.length_take] at htake
    exact htake.trans (Nat.min_eq_left hcount)
  have hplain := collaborators.runCycle_logged horizon tag (m, [])
  rw [hcycle] at hplain
  refine ⟨report, ⟨report.outcomes ++ outcomes, 0⟩, m', m'', calls, later, hplain.symm, hcycle,
    hwhole, keysAscend_groupPartitions _, ?_, (List.take_left' hlength).symm, by omega, ?_, ?_⟩
  · have hkeys := collaborators.logged.partitions_processEach horizon (m.partitions tag)
      (m.calm, [.list tag])
    rwa [hall] at hkeys
  · rw [effect_processAll_logged_of_calm horizon _ (calm_calm m), hpart]
  · intro hstore hmark
    have hquiet : Quiet m.calm := ⟨hlist, hmark, hstore, rfl, rfl⟩
    have hafter := runCycle_after horizon tag hquiet hm.identifies hsplit
    have hstate := collaborators.shows_logged.processEach horizon ((m.partitions tag).take count)
      (m.calm, [.list tag])
    rw [hpart] at hstate
    rw [← hstate] at hafter
    exact hafter

/-- Two folders, and a shutdown that is requested during the first load. -/
def sampleCut : MemoryWorld :=
  ⟨.ofPaths Feed.sampleFeed.paths, Feed.sampleFeed.batches, .ofEvents [], false, some 1⟩

theorem partitions_sampleCut : sampleCut.partitions "tu" =
    [⟨"tu/a", [⟨1, "tu/a/1"⟩]⟩, ⟨"tu/b", [⟨2, "tu/b/2"⟩]⟩] := by
  rfl

theorem shutdown_costs_nothing_in_first_load :
    sampleCut.Reachable ∧ sampleCut.ledger.failNextList = false ∧
    ∃ report m', (collaborators.runCycle 120 "tu").effect sampleCut = (.ok report, m') ∧
      report.outcomes.map Outcome.partition = ["tu/a"] ∧ report.skipped = 1 ∧
      ((collaborators.runCycle 120 "tu").effect m'.calm).2 =
        ((collaborators.runCycle 120 "tu").effect sampleCut.calm).2 := by
  have hreachable : sampleCut.Reachable :=
    (Reachable.start Feed.sampleFeed.paths Feed.sampleFeed.batches (.ofEvents [])).disturbed
      false false Feed.sampleFeed.batches none false (some 1)
  have hlist : sampleCut.ledger.failNextList = false := rfl
  obtain ⟨report, whole, m', -, -, -, hcycle, -, -, -, hwhole, hfirst, hall, -, hafter⟩ :=
    shutdown_costs_nothing 120 "tu" hreachable hlist
  rw [partitions_sampleCut] at hwhole hfirst hall
  have hone : sampleCut.partitionsBeforeShutdown 2 = 1 := rfl
  rw [List.length_cons, List.length_singleton, hone] at hfirst
  have hkeys : report.outcomes.map Outcome.partition = ["tu/a"] := by
    rw [hfirst, List.map_take, hwhole]
    rfl
  have hlength := congrArg List.length hkeys
  simp only [List.length_map, List.length_cons, List.length_nil] at hlength hall
  exact ⟨hreachable, hlist, report, m', hcycle, hkeys, by omega, hafter rfl rfl⟩

end

end MemoryWorld

end StopArrivals
