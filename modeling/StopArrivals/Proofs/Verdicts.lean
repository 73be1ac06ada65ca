import Mathlib.Data.List.Forall2
import StopArrivals.Proofs.Isolation

/-!
# What an outcome tells

A partition can fail at its load, at its extraction, at one of four groups of statements and at the
ledger. Its outcome says how far it came: whatever fails before the ledger is asked leaves the
ledger as it is, and of the store at most what the groups before the failed one change
(`Fault.Leaves`). An outcome with a report stands for one call that marks, done or failed, and an
outcome without one for none, so the calls of a run can be counted in its outcomes
(`MemoryWorld.outcome_tells_truth`).
-/

namespace StopArrivals

/-! ## What a fault leaves -/

/-- The rows of a store before a partition fails with the fault, and after it. -/
def Fault.Leaves (rows rows' : List StoredEvent) : Fault → Prop
  | .load _ | .coercion _ _ | .merge .select _ | .merge .update _ => rows' = rows
  | .merge .delete _ => List.Forall₂ EventTable.Redated rows rows'
  | .merge .insert _ => ∀ r ∈ rows', ∃ x ∈ rows, EventTable.Redated x r
  | .ledger _ => False

theorem EventTable.leaves_before {t t' : EventTable} {events : List Event}
    {group : StatementGroup} (h : t' = t.before events group) (cause : Cause) :
    (Fault.merge group cause).Leaves t.rows t'.rows := by
  subst h
  cases group with
  | select | update => rfl
  | delete =>
    show List.Forall₂ _ t.rows (t.raised events).rows
    rw [rows_raised, List.forall₂_map_right_iff, List.forall₂_same]
    exact fun r _ => raise_eq t events r
  | insert =>
    intro r hr
    obtain ⟨x, hx, -, rfl⟩ := mem_rows_trimmed.mp hr
    exact ⟨x, hx, raise_eq t events x⟩

namespace MemoryWorld

section

variable {horizon : Int} {p : Partition} {m : MemoryWorld}

theorem leaves_of_mergeOf {fault : Fault} {s : MemoryStore}
    (h : mergeOf horizon m.batches p m.store = (.error fault, s)) :
    fault.kind ≠ "ledger" ∧ fault.Leaves m.store.rows s.rows := by
  unfold mergeOf at h
  cases hevents : eventsAt horizon m.batches p with
  | error early =>
    rw [hevents, following_error] at h
    obtain ⟨hfault, rfl⟩ := Prod.mk.inj h
    obtain rfl := Except.error.inj hfault
    have hkind := kind_of_prepared hevents
    cases early with
    | load | coercion => exact ⟨by simp [Fault.kind], rfl⟩
    | merge | ledger => simp [Fault.kind] at hkind
  | ok events =>
    rw [hevents, following_ok] at h
    have hends := MemoryStore.keeps_table.merge_ends events m.store
    rw [h] at hends
    cases hends with
    | @stopped group cause _ htable =>
      exact ⟨by simp [Fault.kind], EventTable.leaves_before htable cause⟩

/-! ## What can fail -/

variable (horizon p m)

def LoadFails : Prop :=
  ∃ cause, m.batches.load tripUpdateColumns tripUpdateFilters p.paths = .error cause

def ExtractionFails : Prop :=
  ∃ rows fault, m.batches.load tripUpdateColumns tripUpdateFilters p.paths = .ok rows ∧
    (extract horizon rows).1 = .error fault

/-- The merge of what is extracted ends like this. -/
def MergeGives (result : Except Fault MergeReport × MemoryStore) : Prop :=
  ∃ events, eventsAt horizon m.batches p = .ok events ∧
    (mergeEvents MemoryStore.store events).run.effect m.store = result

def MergeFails : Prop := ∃ fault s, MergeGives horizon p m (.error fault, s)

/-- The ledger will not even be asked. -/
def FailsBeforeMarking : Prop :=
  LoadFails p m ∨ ExtractionFails horizon p m ∨ MergeFails horizon p m

def MarkFails : Prop := ∃ cause, (MemoryLedger.mark p.ids m.ledger).1 = .error cause

variable {horizon p m}

theorem eventsAt_fails_iff :
    (∃ fault, eventsAt horizon m.batches p = .error fault) ↔
      LoadFails p m ∨ ExtractionFails horizon p m := by
  unfold eventsAt LoadFails ExtractionFails
  cases m.batches.load tripUpdateColumns tripUpdateFilters p.paths with
  | error cause => simp [prepared]
  | ok rows =>
    simp only [prepared]
    cases hextract : (extract horizon rows).1 with
    | error fault => simp [hextract, Except.map]
    | ok extraction => simp [hextract, Except.map]

theorem mergeOf_eq_ok_iff {report : MergeReport} {s : MemoryStore} :
    mergeOf horizon m.batches p m.store = (.ok report, s) ↔
      MergeGives horizon p m (.ok report, s) := by
  unfold mergeOf MergeGives
  cases eventsAt horizon m.batches p with
  | error fault => simp [following_error]
  | ok events => simp [following_ok]

theorem mergeOf_fails_iff :
    (∃ fault s, mergeOf horizon m.batches p m.store = (.error fault, s)) ↔
      FailsBeforeMarking horizon p m := by
  rw [FailsBeforeMarking, ← or_assoc, ← eventsAt_fails_iff]
  unfold mergeOf MergeFails MergeGives
  cases eventsAt horizon m.batches p with
  | error fault => simp [following_error]
  | ok events => simp [following_ok]

theorem markFails_iff : MarkFails p m ↔ m.ledger.failNextMark = true := by
  unfold MarkFails
  cases hfail : m.ledger.failNextMark with
  | true => simp [MemoryLedger.mark_fails hfail]
  | false =>
    obtain ⟨n, hmark⟩ := MemoryLedger.mark_succeeds hfail p.ids
    simp [hmark]

/-! ## Outcomes -/

/-- How a partition ends. -/
inductive Verdict (horizon : Int) (p : Partition) (m : MemoryWorld) :
    Outcome × MemoryWorld → Prop where
  | failed {fault : Fault} {s : MemoryStore}
    (hmerge : mergeOf horizon m.batches p m.store = (.error fault, s)) :
    Verdict horizon p m
      (.failed p.key p.objects.length fault, { m.countLoad with store := s })
  | unmarked {report : MergeReport} {s : MemoryStore}
    (hmerge : mergeOf horizon m.batches p m.store = (.ok report, s))
    (hmark : m.ledger.failNextMark = true) :
    Verdict horizon p m
      (.unmarked p.key p.objects.length report (.ledger (.plain "injected ledger failure")),
        { m.countLoad with ledger := m.ledger.unmarked, store := s })
  | processed {report : MergeReport} {s : MemoryStore}
    (hmerge : mergeOf horizon m.batches p m.store = (.ok report, s))
    (hmark : m.ledger.failNextMark = false) :
    Verdict horizon p m (.processed p.key p.objects.length report,
      { m.countLoad with ledger := m.ledger.marked p.ids, store := s })

theorem processPartition_verdict (horizon : Int) (p : Partition) (m : MemoryWorld) :
    Verdict horizon p m ((collaborators.processPartition horizon p).effect m) := by
  rw [effect_processPartition]
  rcases hmerge : mergeOf horizon m.batches p m.store with ⟨fault | report, s⟩
  · exact .failed hmerge
  · cases hmark : m.ledger.failNextMark with
    | true =>
      rw [conclude_of_failed_marking (by rwa [ledger_countLoad]), ledger_countLoad]
      exact .unmarked hmerge hmark
    | false =>
      rw [conclude_of_marking (by rwa [ledger_countLoad]), ledger_countLoad]
      exact .processed hmerge hmark

/-! ## Marked objects -/

theorem listed_of_partition {tag : String} (hp : p ∈ m.partitions tag) {o : SourceObject}
    (ho : o ∈ p.objects) : ⟨o, false⟩ ∈ m.ledger.rows := by
  rw [(mem_groupPartitions.mp hp).2] at ho
  obtain ⟨r, hr, rfl⟩ := List.mem_map.mp (mem_inFolder.mp ho).1
  obtain ⟨hr, hpending⟩ := List.mem_filter.mp hr
  simp only [Bool.and_eq_true, Bool.not_eq_true'] at hpending
  rwa [← hpending.1]

/-- Where an id stands for one object, the objects that are marked are those of the partition. -/
theorem marked_partition {tag : String} (hids : m.ledger.Identifies) (hp : p ∈ m.partitions tag) :
    m.ledger.marked p.ids =
      { m.ledger with
        rows := m.ledger.rows.map fun r =>
          if r.object ∈ p.objects then { r with processed := true } else r
        markCalls := m.ledger.markCalls + 1 } := by
  have hmem : ∀ r ∈ m.ledger.rows, r.object.id ∈ p.ids ↔ r.object ∈ p.objects := by
    intro r hr
    constructor
    · intro hid
      obtain ⟨o, ho, hor⟩ := List.mem_map.mp hid
      have holisted : o ∈ m.ledger.rows.map LedgerRow.object :=
        List.mem_map_of_mem (listed_of_partition hp ho)
      rwa [← List.inj_on_of_nodup_map hids holisted (List.mem_map_of_mem hr) hor]
    · exact fun ho => List.mem_map_of_mem ho
  have hrows : m.ledger.rows.map (MemoryLedger.markRow p.ids) = m.ledger.rows.map fun r =>
      if r.object ∈ p.objects then { r with processed := true } else r := by
    refine List.map_congr_left fun r hr => ?_
    simp only [MemoryLedger.markRow, hmem r hr]
  rw [MemoryLedger.marked, hrows]

/-! ## The truth of an outcome -/

/-- What an outcome says of the world before and after the partition. -/
def TrueOf (horizon : Int) (p : Partition) (m m' : MemoryWorld) : Outcome → Prop
  | .processed _ _ report => MergeGives horizon p m (.ok report, m'.store) ∧
      (∀ o ∈ p.objects, ⟨o, false⟩ ∈ m.ledger.rows) ∧
      m'.ledger =
        { m.ledger with
          rows := m.ledger.rows.map fun r =>
            if r.object ∈ p.objects then { r with processed := true } else r
          markCalls := m.ledger.markCalls + 1 }
  | .failed _ _ fault => fault.kind ≠ "ledger" ∧ fault.Leaves m.store.rows m'.store.rows ∧
      m'.ledger = m.ledger
  | .unmarked _ _ report fault => MergeGives horizon p m (.ok report, m'.store) ∧
      fault.kind = "ledger" ∧
      m'.ledger = { m.ledger with failNextMark := false, markCalls := m.ledger.markCalls + 1 }

theorem Verdict.trueOf {tag : String} {result : Outcome × MemoryWorld}
    (h : Verdict horizon p m result) (hids : m.ledger.Identifies) (hp : p ∈ m.partitions tag) :
    TrueOf horizon p m result.2 result.1 := by
  cases h with
  | failed hmerge =>
    obtain ⟨hkind, hrows⟩ := leaves_of_mergeOf hmerge
    exact ⟨hkind, hrows, m.ledger_countLoad⟩
  | unmarked hmerge => exact ⟨mergeOf_eq_ok_iff.mp hmerge, rfl, rfl⟩
  | processed hmerge =>
    exact ⟨mergeOf_eq_ok_iff.mp hmerge, fun o => listed_of_partition hp, marked_partition hids hp⟩

/-- Which outcome it is depends on what fails, and on nothing else. -/
theorem Verdict.outcome_iff {result : Outcome × MemoryWorld} (h : Verdict horizon p m result) :
    ((∃ report, result.1 = .processed p.key p.objects.length report) ↔
      ¬FailsBeforeMarking horizon p m ∧ ¬MarkFails p m) ∧
    ((∃ fault, result.1 = .failed p.key p.objects.length fault) ↔
      FailsBeforeMarking horizon p m) ∧
    ((∃ report fault, result.1 = .unmarked p.key p.objects.length report fault) ↔
      ¬FailsBeforeMarking horizon p m ∧ MarkFails p m) := by
  rw [← mergeOf_fails_iff, markFails_iff]
  cases h with
  | failed hmerge => simp [hmerge]
  | unmarked hmerge hmark => simp [hmerge, hmark]
  | processed hmerge hmark => simp [hmerge, hmark]

/-! ## Calls that mark -/

theorem Verdict.markCalls {result : Outcome × MemoryWorld} (h : Verdict horizon p m result) :
    result.2.ledger.markCalls =
      m.ledger.markCalls + [result.1].countP fun o => o.report?.isSome := by
  cases h with
  | failed =>
    show m.countLoad.ledger.markCalls = m.ledger.markCalls
    rw [ledger_countLoad]
  | unmarked | processed => rfl

theorem markCalls_processAll (horizon : Int) (ps : List Partition) (m : MemoryWorld) :
    ((collaborators.processAll horizon ps).effect m).2.ledger.markCalls =
      m.ledger.markCalls + ((collaborators.processAll horizon ps).effect m).1.outcomes.countP
        fun o => o.report?.isSome := by
  induction ps generalizing m with
  | nil => rfl
  | cons p ps ih =>
    rw [Collaborators.effect_processAll_cons]
    split
    · rfl
    · dsimp only
      rw [ih, (processPartition_verdict horizon p m).markCalls, Nat.add_assoc,
        ← List.countP_append, List.singleton_append]

theorem markCalls_runCycle (horizon : Int) (tag : String) (m : MemoryWorld) :
    ((collaborators.runCycle horizon tag).effect m).2.ledger.markCalls =
      m.ledger.markCalls + (cycleOutcomes ((collaborators.runCycle horizon tag).effect m).1).countP
        fun o => o.report?.isSome := by
  have hlist : (collaborators.ledger.list tag m).2.ledger.markCalls = m.ledger.markCalls := by
    change (MemoryLedger.list tag m.ledger).2.markCalls = _
    unfold MemoryLedger.list
    split <;> rfl
  rw [Collaborators.effect_runCycle]
  generalize collaborators.ledger.list tag m = listed at hlist ⊢
  obtain ⟨_ | objects, m₁⟩ := listed
  · exact hlist
  · rw [following_ok]
    dsimp only [cycleOutcomes] at hlist ⊢
    rw [markCalls_processAll, hlist]

theorem markCalls_cycles {settings : Nat → MemoryWorld → MemoryWorld}
    (hset : ∀ cycle m, (settings cycle m).ledger.markCalls = m.ledger.markCalls) (horizon : Int)
    (tag : String) (n : Nat) (m : MemoryWorld) :
    (cycles settings horizon tag n m).2.ledger.markCalls =
      m.ledger.markCalls + (cycles settings horizon tag n m).1.countP
        fun o => o.report?.isSome := by
  induction n with
  | zero => rfl
  | succ n ih =>
    rw [cycles]
    dsimp only
    rw [markCalls_runCycle, hset, ih, Nat.add_assoc, ← List.countP_append]

end

/-- Each outcome of a partition comes if and only if what it says is the case, and then the ledger
and the store are as it says. Over any number of cycles the ledger is asked to mark objects once for
each partition that was merged, and not otherwise. -/
theorem outcome_tells_truth (horizon : Int) (tag : String) (m : MemoryWorld) :
    (∀ p ∈ m.partitions tag, m.ledger.Identifies →
      let result := (collaborators.processPartition horizon p).effect m
      ((∃ report, result.1 = .processed p.key p.objects.length report) ↔
        ¬FailsBeforeMarking horizon p m ∧ ¬MarkFails p m) ∧
      ((∃ fault, result.1 = .failed p.key p.objects.length fault) ↔
        FailsBeforeMarking horizon p m) ∧
      ((∃ report fault, result.1 = .unmarked p.key p.objects.length report fault) ↔
        ¬FailsBeforeMarking horizon p m ∧ MarkFails p m) ∧
      TrueOf horizon p m result.2 result.1) ∧
    ∀ settings : Nat → MemoryWorld → MemoryWorld,
      (∀ cycle m', (settings cycle m').ledger.markCalls = m'.ledger.markCalls) → ∀ n,
      (cycles settings horizon tag n m).2.ledger.markCalls =
        m.ledger.markCalls + (cycles settings horizon tag n m).1.countP
          fun o => o.report?.isSome := by
  refine ⟨fun p hp hids => ?_, fun settings hset n => markCalls_cycles hset horizon tag n m⟩
  have hverdict := processPartition_verdict horizon p m
  obtain ⟨hprocessed, hfailed, hunmarked⟩ := hverdict.outcome_iff
  exact ⟨hprocessed, hfailed, hunmarked, hverdict.trueOf hids hp⟩

/-- One of two folders can be read, and the first marking fails. -/
def sampleUnmarked : MemoryWorld := { sampleUnreadable with store := .ofEvents [] }

theorem outcome_tells_truth_of_failed_marking :
    let p : Partition := ⟨"tu/a", [⟨1, "tu/a/1"⟩]⟩
    let result := (collaborators.processPartition 120 p).effect sampleUnmarked
    p ∈ sampleUnmarked.partitions "tu" ∧ sampleUnmarked.ledger.Identifies ∧
      (∃ report fault, result.1 = .unmarked "tu/a" 1 report fault) ∧
      TrueOf 120 p sampleUnmarked result.2 result.1 := by
  intro p result
  have hp : p ∈ sampleUnmarked.partitions "tu" := by
    have hpartitions : sampleUnmarked.partitions "tu" = [p, ⟨"tu/b", [⟨2, "tu/b/2"⟩]⟩] :=
      partitions_sampleCut
    rw [hpartitions]
    exact List.mem_cons_self
  have hids : sampleUnmarked.ledger.Identifies := by
    unfold MemoryLedger.Identifies
    decide
  obtain ⟨-, -, hunmarked, htrue⟩ := (outcome_tells_truth 120 "tu" sampleUnmarked).1 p hp hids
  refine ⟨hp, hids, hunmarked.mpr ⟨?_, ?_⟩, htrue⟩
  · rw [← mergeOf_fails_iff]
    rintro ⟨fault, s, hfails⟩
    obtain ⟨report, s', hmerge, -⟩ := MemoryStore.merge_succeeds (s := sampleUnmarked.store) rfl
      [.predicted Feed.sampleVisit 1735700060]
    have hevents : eventsAt 120 sampleUnmarked.batches p =
        .ok [.predicted Feed.sampleVisit 1735700060] := Feed.events_sampleFeed
    unfold mergeOf at hfails
    rw [hevents, following_ok, hmerge] at hfails
    cases hfails
  · exact markFails_iff.mpr rfl

end MemoryWorld

end StopArrivals
