import Mathlib.Algebra.Ring.Nat
import StopArrivals.Proofs.Convergence
import StopArrivals.Proofs.Reports

/-!
# What the totals say about the table

The service counts what its cycles report. A merge that stops halfway has no report, and a merge
that is repeated because its objects could not be marked reports twice, so the totals are not a sum
over what was done. Still they account for the table (`Service.totals_account`): where each
fingerprint has one row at most, no merge deletes anything, a merge that stops has inserted nothing,
and one that is repeated finds its rows there. So the rows are those of the start and as many as
were counted.
-/

namespace StopArrivals

/-! ## Tables with one row for each fingerprint -/

namespace EventTable

def Distinct (t : EventTable) : Prop := (t.rows.map (·.event.fingerprint)).Nodup

namespace Distinct

variable {t : EventTable} {events : List Event}

theorem leads (h : t.Distinct) {r : StoredEvent} (hr : r ∈ t.rows) : Leads t.rows r := by
  intro x hx hxr
  rw [List.inj_on_of_nodup_map h hx hr hxr]

/-- Only rows that are led by another one are deleted. -/
theorem deletes_eq_nil (h : t.Distinct) : (t.plan events).deletes = [] := by
  refine List.eq_nil_iff_forall_not_mem.mpr fun id hid => ?_
  obtain ⟨r, hr, -, -, hled⟩ := mem_plan_deletes.mp hid
  exact hled (h.leads hr)

theorem fingerprints_trimmed (h : t.Distinct) :
    (t.trimmed events).rows.map (·.event.fingerprint) = t.rows.map (·.event.fingerprint) := by
  unfold trimmed
  rw [h.deletes_eq_nil, remove_nil, rows_raised, List.map_map]
  exact List.map_congr_left fun r _ => raise_fingerprint t events r

theorem trimmed (h : t.Distinct) : (t.trimmed events).Distinct := by
  unfold Distinct
  rwa [h.fingerprints_trimmed]

theorem length_trimmed (h : t.Distinct) : (t.trimmed events).rows.length = t.rows.length := by
  have hlength : (t.trimmed events).rows.length + _ = _ := EventTable.length_trimmed
  rwa [h.deletes_eq_nil] at hlength

theorem merged (h : t.Distinct) : (t.merged events).Distinct := by
  have hinserts : ((t.plan events).inserts.map Event.fingerprint).Nodup :=
    List.nodup_iff_pairwise_ne.mpr (List.pairwise_map.mpr inserts_distinct)
  have hrows : (t.merged events).rows.map (·.event.fingerprint) =
      (t.trimmed events).rows.map (·.event.fingerprint) ++
        (t.plan events).inserts.map Event.fingerprint := by
    conv_rhs => rw [← map_event_numbered (t.trimmed events).lastId (t.plan events).inserts]
    simp only [EventTable.merged, append, List.map_append, List.map_map, Function.comp_def]
  unfold Distinct
  rw [hrows]
  refine List.Nodup.append h.trimmed hinserts fun f hold hnew => ?_
  obtain ⟨e, he, rfl⟩ := List.mem_map.mp hnew
  exact inserts_new e he hold

theorem length_merged (h : t.Distinct) :
    (t.merged events).rows.length = t.rows.length + (t.plan events).inserts.length := by
  have hlength : (t.merged events).rows.length + _ = _ := EventTable.length_merged
  rwa [h.deletes_eq_nil] at hlength

/-- A merge that stops has inserted nothing. -/
theorem before (h : t.Distinct) (events : List Event) (group : StatementGroup) :
    (t.before events group).Distinct ∧ (t.before events group).rows.length = t.rows.length := by
  have hraised : t.raised events = t.trimmed events := by
    unfold EventTable.trimmed
    rw [h.deletes_eq_nil, remove_nil]
  cases group with
  | select | update => exact ⟨h, rfl⟩
  | delete =>
    show (t.raised events).Distinct ∧ _
    rw [EventTable.before, hraised]
    exact ⟨h.trimmed, h.length_trimmed⟩
  | insert => exact ⟨h.trimmed, h.length_trimmed⟩

end Distinct

end EventTable

/-! ## Outcomes that account for a table -/

/-- What the reports of some outcomes come to. A failed partition has no report. -/
def reported (amount : MergeReport → Nat) (outcomes : List Outcome) : Nat :=
  ((outcomes.filterMap Outcome.report?).map amount).sum

theorem reported_append (amount : MergeReport → Nat) (a b : List Outcome) :
    reported amount (a ++ b) = reported amount a + reported amount b := by
  unfold reported
  rw [List.filterMap_append, List.map_append, List.sum_append]

theorem reported_of_none {amount : MergeReport → Nat} {o : Outcome} (h : o.report? = none) :
    reported amount [o] = 0 := by
  simp [reported, h]

theorem reported_of_some {amount : MergeReport → Nat} {o : Outcome} {report : MergeReport}
    (h : o.report? = some report) : reported amount [o] = amount report := by
  simp [reported, h]

/-- What the outcomes report makes the difference between two tables. -/
structure Accounts (t : EventTable) (outcomes : List Outcome) (t' : EventTable) : Prop where
  distinct : t'.Distinct
  deleted : reported MergeReport.deleted outcomes = 0
  rows : t'.rows.length = t.rows.length + reported MergeReport.inserted outcomes

namespace Accounts

variable {t t₁ t₂ : EventTable} {a b : List Outcome}

theorem none (h : t.Distinct) : Accounts t [] t := ⟨h, rfl, rfl⟩

theorem append (h₁ : Accounts t a t₁) (h₂ : Accounts t₁ b t₂) : Accounts t (a ++ b) t₂ where
  distinct := h₂.distinct
  deleted := by rw [reported_append, h₁.deleted, h₂.deleted]
  rows := by rw [reported_append, h₂.rows, h₁.rows, Nat.add_assoc]

end Accounts

namespace Interference

variable {i : Interference} {w : DisturbedWorld} (horizon : Int)

theorem accounts_processPartition (p : Partition) (h : w.table.Distinct) :
    Accounts w.table [((i.collaborators.processPartition horizon p).effect w).1]
      ((i.collaborators.processPartition horizon p).effect w).2.table := by
  have hends := i.processPartition_reports horizon p w
  generalize (i.collaborators.processPartition horizon p).effect w = ended at hends ⊢
  cases hends with
  | silent events group hreport htable =>
    obtain ⟨hdistinct, hrows⟩ := h.before events group
    rw [htable]
    exact ⟨hdistinct, reported_of_none hreport, by rw [reported_of_none hreport, hrows]; rfl⟩
  | @reported _ _ events _ hreport htable =>
    have hdeleted : (w.table.reportOf events).deleted = 0 := congrArg List.length h.deletes_eq_nil
    rw [htable]
    refine ⟨h.merged, (reported_of_some hreport).trans hdeleted, ?_⟩
    rw [reported_of_some hreport, h.length_merged]
    rfl

theorem accounts_processAll (ps : List Partition) (h : w.table.Distinct) :
    Accounts w.table ((i.collaborators.processAll horizon ps).effect w).1.outcomes
      ((i.collaborators.processAll horizon ps).effect w).2.table := by
  induction ps generalizing w with
  | nil => exact .none h
  | cons p ps ih =>
    rw [Collaborators.effect_processAll_cons]
    split
    · exact .none h
    · have hfirst := accounts_processPartition (i := i) horizon p h
      exact hfirst.append (ih hfirst.distinct)

theorem accounts_runCycle (tag : String) (h : w.table.Distinct) :
    Accounts w.table (cycleOutcomes ((i.collaborators.runCycle horizon tag).effect w).1)
      ((i.collaborators.runCycle horizon tag).effect w).2.table := by
  rw [Collaborators.effect_runCycle]
  have hlisted := i.list_listed tag w
  generalize i.collaborators.ledger.list tag w = listed at hlisted ⊢
  rw [← hlisted.table] at h ⊢
  obtain ⟨_ | objects, w₁⟩ := listed
  · exact .none h
  · exact accounts_processAll horizon _ h

end Interference

/-! ## Totals -/

namespace Totals

/-- The totals after a cycle with the given answer. -/
def after (t : Totals) : Except Cause CycleReport → Totals
  | .ok report => t.recordCycle report
  | .error cause => t.recordError cause.message

/-- A counter goes up by an amount that each outcome brings. -/
structure Gathers (count : Totals → UInt64) (amount : List Outcome → Nat) : Prop where
  none : amount [] = 0
  append : ∀ a b, amount (a ++ b) = amount a + amount b
  outcome : ∀ t o, count (t.addOutcome o) = count t + UInt64.ofNat (amount [o])
  other : ∀ t cycles lastError, count { t with cycles, lastError } = count t

namespace Gathers

variable {count : Totals → UInt64} {amount : List Outcome → Nat}

theorem outcomes (h : Gathers count amount) (os : List Outcome) (t : Totals) :
    count (os.foldl addOutcome t) = count t + UInt64.ofNat (amount os) := by
  induction os generalizing t with
  | nil =>
    rw [h.none]
    exact (UInt64.add_zero _).symm
  | cons o os ih =>
    rw [List.foldl_cons, ih, h.outcome, UInt64.add_assoc, ← UInt64.ofNat_add, ← h.append,
      List.singleton_append]

theorem recordError (h : Gathers count amount) (t : Totals) (message : String) :
    count (t.recordError message) = count t := h.other t ..

theorem recordCycle (h : Gathers count amount) (t : Totals) (report : CycleReport) :
    count (t.recordCycle report) = count t + UInt64.ofNat (amount report.outcomes) :=
  calc count (t.recordCycle report)
      = count (report.outcomes.foldl addOutcome { t with cycles := t.cycles + 1 }) := h.other ..
    _ = count { t with cycles := t.cycles + 1 } + UInt64.ofNat (amount report.outcomes) :=
        h.outcomes ..
    _ = count t + UInt64.ofNat (amount report.outcomes) := by rw [h.other t ..]

theorem after (h : Gathers count amount) (t : Totals) (answer : Except Cause CycleReport) :
    count (t.after answer) = count t + UInt64.ofNat (amount (cycleOutcomes answer)) := by
  cases answer with
  | ok report => exact h.recordCycle t report
  | error cause =>
    rw [cycleOutcomes, h.none]
    exact (h.recordError t _).trans (UInt64.add_zero _).symm

end Gathers

/-- A counter adds up an amount that merges report. -/
structure Tallies (count : Totals → UInt64) (amount : MergeReport → Nat) : Prop where
  merge : ∀ t r, count (t.addMerge r) = count t + UInt64.ofNat (amount r)
  other : ∀ t cycles partitionsProcessed partitionsFailed lastError,
    count { t with cycles, partitionsProcessed, partitionsFailed, lastError } = count t

theorem tallies_updated : Tallies eventsUpdated MergeReport.updated :=
  ⟨fun _ _ => rfl, fun _ _ _ _ _ => rfl⟩

theorem tallies_deleted : Tallies eventsDeleted MergeReport.deleted :=
  ⟨fun _ _ => rfl, fun _ _ _ _ _ => rfl⟩

theorem tallies_inserted : Tallies eventsInserted MergeReport.inserted :=
  ⟨fun _ _ => rfl, fun _ _ _ _ _ => rfl⟩

theorem Tallies.gathers {count : Totals → UInt64} {amount : MergeReport → Nat}
    (h : Tallies count amount) : Gathers count (reported amount) where
  none := rfl
  append := reported_append amount
  outcome t o := by
    cases o with
    | processed _ _ report =>
      rw [reported_of_some rfl, ← h.merge t report]
      exact h.other (t.addMerge report) ..
    | unmarked _ _ report =>
      rw [reported_of_some rfl, ← h.merge t report]
      exact h.other (t.addMerge report) ..
    | failed p objects fault =>
      rw [reported_of_none rfl]
      exact (h.other t ..).trans (UInt64.add_zero _).symm
  other t _ _ := h.other t ..

end Totals

namespace Service

theorem effect_runCycle {ω : Type} (c : Collaborators ω) (horizon : Int) (tag : String)
    (v : Service ω) : (Service.runCycle c horizon tag).effect v =
      (((c.runCycle horizon tag).effect v.world).1,
        ⟨((c.runCycle horizon tag).effect v.world).2,
          v.totals.after ((c.runCycle horizon tag).effect v.world).1⟩) := by
  simp only [Service.runCycle, Step.effect_bind, Step.effect_noting, Step.effect_post,
    Part.effect_step, Part.lift, Service.worldPart]
  rcases (c.runCycle horizon tag).effect v.world with ⟨_ | report, w⟩
  · rfl
  · rfl

/-- The service in memory after some cycles, and all that these reported. Before each of them the
files may change. -/
def afterCycles (i : Interference) (files : Nat → MemoryBatches) (horizon : Int) (tag : String)
    (v : Service DisturbedWorld) : Nat → List Outcome × Service DisturbedWorld
  | 0 => ([], v)
  | n + 1 =>
    let past := afterCycles i files horizon tag v n
    let last := (Service.runCycle i.collaborators horizon tag).effect
      { past.2 with world.world.batches := files n }
    (past.1 ++ cycleOutcomes last.1, last.2)

section

variable (i : Interference) (files : Nat → MemoryBatches) (horizon : Int) (tag : String)

theorem accounts_afterCycles {w : DisturbedWorld} (h : w.table.Distinct) (n : Nat) :
    Accounts w.table (afterCycles i files horizon tag ⟨w, .zero⟩ n).1
      (afterCycles i files horizon tag ⟨w, .zero⟩ n).2.world.table := by
  induction n with
  | zero => exact .none h
  | succ n ih =>
    unfold afterCycles
    dsimp only
    rw [effect_runCycle]
    generalize afterCycles i files horizon tag ⟨w, .zero⟩ n = past at ih ⊢
    refine ih.append ?_
    exact Interference.accounts_runCycle (w := { past.2.world with world.batches := files n })
      horizon tag ih.distinct

theorem totals_afterCycles {count : Totals → UInt64} {amount : MergeReport → Nat}
    (h : Totals.Tallies count amount) (v : Service DisturbedWorld) (n : Nat) :
    count (afterCycles i files horizon tag v n).2.totals =
      count v.totals + UInt64.ofNat (reported amount (afterCycles i files horizon tag v n).1) := by
  induction n with
  | zero => exact (UInt64.add_zero _).symm
  | succ n ih =>
    unfold afterCycles
    dsimp only
    rw [effect_runCycle, h.gathers.after, ih, reported_append, UInt64.ofNat_add, UInt64.add_assoc]

/-- The totals account for the table, whatever fails and whenever a shutdown is requested. On a
table with one row for each fingerprint nothing is ever deleted, and the rows are those of the start
and those counted as inserted. What is counted as updated is what the reports of merges add up to: a
merge that stopped halfway has none, and each repetition of a merge has one more. -/
theorem totals_account {w : DisturbedWorld} (h : w.table.Distinct) (n : Nat) :
    let reached := afterCycles i files horizon tag ⟨w, .zero⟩ n
    reached.2.world.table.Distinct ∧ reached.2.totals.eventsDeleted = 0 ∧
      UInt64.ofNat reached.2.world.table.rows.length =
        UInt64.ofNat w.table.rows.length + reached.2.totals.eventsInserted ∧
      reached.2.totals.eventsUpdated = UInt64.ofNat (reported MergeReport.updated reached.1) := by
  intro reached
  have haccounts := accounts_afterCycles i files horizon tag h n
  have hupdated := totals_afterCycles i files horizon tag Totals.tallies_updated ⟨w, .zero⟩ n
  have hdeleted := totals_afterCycles i files horizon tag Totals.tallies_deleted ⟨w, .zero⟩ n
  have hinserted := totals_afterCycles i files horizon tag Totals.tallies_inserted ⟨w, .zero⟩ n
  rw [haccounts.deleted] at hdeleted
  refine ⟨haccounts.distinct, hdeleted, ?_, hupdated.trans (UInt64.zero_add _)⟩
  rw [haccounts.rows, UInt64.ofNat_add, hinserted]
  exact congrArg _ (UInt64.zero_add _).symm

end

/-- The table holds the visit of the message at first. -/
def sampleStart : DisturbedWorld :=
  Feed.sampleFeed.start (.ofEvents [.predicted Feed.sampleVisit 10])

theorem totals_account_after_failed_listing :
    sampleStart.table.Distinct ∧
    ∃ reached, reached = (afterCycles Feed.firstListingFails (fun _ => Feed.sampleFeed.batches) 120
        "tu" ⟨sampleStart, .zero⟩ 2).2 ∧
      reached.totals.eventsDeleted = 0 ∧
      UInt64.ofNat reached.world.table.rows.length = 1 + reached.totals.eventsInserted := by
  have hdistinct : sampleStart.table.Distinct := List.nodup_singleton _
  obtain ⟨-, hdeleted, hrows, -⟩ := totals_account Feed.firstListingFails
    (fun _ => Feed.sampleFeed.batches) 120 "tu" hdistinct 2
  have hone : sampleStart.table.rows.length = 1 := rfl
  rw [hone] at hrows
  exact ⟨hdistinct, _, rfl, hdeleted, hrows⟩

end Service

end StopArrivals
