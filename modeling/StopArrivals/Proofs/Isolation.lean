import StopArrivals.Proofs.Candidates
import StopArrivals.Proofs.Interruption

/-!
# Bad partitions

A partition is bad when its files cannot be loaded or a row of them cannot be read. It fails, it is
not marked, and so every cycle finds it again. That is all it does: a bad partition makes no call
that could use up a failure set for the store or for the ledger, and takes no id. A run is therefore
compared with one in which the objects of bad partitions are not in the ledger
(`MemoryWorld.without`). A partition is processed alike in both (`processPartition_without`), so a
cycle of the one is a cycle of the other with the outcomes of bad partitions left out
(`runCycle_without`), and no cycle changes which partitions are bad (`badPartitions_processEach`).
-/

namespace StopArrivals

/-! ## Ledgers without some objects -/

namespace MemoryLedger

def without (objects : List SourceObject) (l : MemoryLedger) : MemoryLedger :=
  { l with rows := l.rows.filter fun r => r.object ∉ objects }

theorem pending_without (tag : String) (objects : List SourceObject) (l : MemoryLedger) :
    (l.without objects).pending tag = (l.pending tag).filter fun o => o ∉ objects := by
  unfold pending without
  rw [List.filter_map, List.filter_filter, List.filter_filter]
  refine congrArg (List.map LedgerRow.object) (List.filter_congr fun r _ => ?_)
  exact Bool.and_comm _ _

theorem marked_without (ids : List Int) (objects : List SourceObject) (l : MemoryLedger) :
    (l.without objects).marked ids = (l.marked ids).without objects := by
  unfold marked without
  rw [List.filter_map]
  have hobject : ∀ r : LedgerRow, (markRow ids r).object = r.object := object_markRow ids
  simp only [Function.comp_def, hobject]

end MemoryLedger

namespace MemoryWorld

def without (objects : List SourceObject) (m : MemoryWorld) : MemoryWorld :=
  { m with ledger := m.ledger.without objects }

/-! ## A partition on a calm world -/

section

variable {horizon : Int} {p : Partition} {m : MemoryWorld}

/-- A partition is processed alike, whatever else the ledger lists. -/
theorem processPartition_without (objects : List SourceObject) (h : m.calm = m) :
    (collaborators.processPartition horizon p).effect (m.without objects) =
      seen (without objects) ((collaborators.processPartition horizon p).effect m) := by
  have hreduced : (m.without objects).calm = m.without objects := congrArg (without objects) h
  rw [effect_processPartition_of_calm h, effect_processPartition_of_calm hreduced]
  change conclude p (m.without objects) (mergeOf horizon m.batches p m.store) = _
  rcases mergeOf horizon m.batches p m.store with ⟨fault | report, s⟩
  · rfl
  · cases hfail : m.ledger.failNextMark with
    | true =>
      have hreduced : (m.without objects).ledger.failNextMark = true := hfail
      rw [conclude_of_failed_marking hfail, conclude_of_failed_marking hreduced]
      rfl
    | false =>
      have hreduced : (m.without objects).ledger.failNextMark = false := hfail
      rw [conclude_of_marking hfail, conclude_of_marking hreduced]
      dsimp only [without]
      rw [MemoryLedger.marked_without]
      rfl

end

/-! ## Bad partitions -/

def isBad (horizon : Int) (batches : MemoryBatches) (p : Partition) : Bool :=
  !(eventsAt horizon batches p).isOk

/-- Those among the partitions that a cycle finds that are bad. -/
def badPartitions (horizon : Int) (tag : String) (m : MemoryWorld) : List Partition :=
  (m.partitions tag).filter fun p => isBad horizon m.batches p

def badObjects (horizon : Int) (tag : String) (m : MemoryWorld) : List SourceObject :=
  (m.badPartitions horizon tag).flatMap Partition.objects

/-- A world on which every cycle processes all partitions that it finds. -/
structure Steady (m : MemoryWorld) : Prop where
  identifies : m.ledger.Identifies
  list : m.ledger.failNextList = false
  shutdown : m.shutdown = false
  shutdownAtLoad : m.shutdownAtLoad = none

theorem Steady.calm {m : MemoryWorld} (h : m.Steady) : m.calm = m :=
  calm_eq_self h.shutdown h.shutdownAtLoad

theorem isBad_iff {horizon : Int} {batches : MemoryBatches} {p : Partition} :
    isBad horizon batches p = true ↔ ∃ fault, eventsAt horizon batches p = .error fault := by
  unfold isBad
  cases eventsAt horizon batches p with
  | error fault => simp [Except.isOk, Except.toBool]
  | ok events => simp [Except.isOk, Except.toBool]

section

variable {horizon : Int} {tag : String} {p : Partition} {m : MemoryWorld}

/-- What a partition may do to a calm world. -/
inductive CalmEnds (horizon : Int) (p : Partition) (m : MemoryWorld) :
    Outcome × MemoryWorld → Prop where
  | bad {fault : Fault} (hfault : eventsAt horizon m.batches p = .error fault) :
    CalmEnds horizon p m (.failed p.key p.objects.length fault, m)
  | left {outcome : Outcome} {l : MemoryLedger} {s : MemoryStore}
    (hgood : isBad horizon m.batches p = false) (hrows : l.rows = m.ledger.rows)
    (hlist : l.failNextList = m.ledger.failNextList) :
    CalmEnds horizon p m (outcome, { m with ledger := l, store := s })
  | marked {outcome : Outcome} {s : MemoryStore} (hgood : isBad horizon m.batches p = false) :
    CalmEnds horizon p m (outcome, { m with ledger := m.ledger.marked p.ids, store := s })

theorem processPartition_calm (horizon : Int) (p : Partition) (h : m.calm = m) :
    CalmEnds horizon p m ((collaborators.processPartition horizon p).effect m) := by
  cases hevents : eventsAt horizon m.batches p with
  | error fault =>
    rw [processPartition_bad h hevents]
    exact .bad hevents
  | ok events =>
    rw [effect_processPartition_of_calm h]
    have hgood : isBad horizon m.batches p = false := by
      unfold isBad
      rw [hevents]
      rfl
    rcases mergeOf horizon m.batches p m.store with ⟨fault | report, s⟩
    · exact .left hgood rfl rfl
    · cases hfail : m.ledger.failNextMark with
      | true =>
        rw [conclude_of_failed_marking hfail]
        exact .left hgood rfl rfl
      | false =>
        rw [conclude_of_marking hfail]
        exact .marked hgood

theorem CalmEnds.steady {result : Outcome × MemoryWorld} (h : CalmEnds horizon p m result)
    (hm : m.Steady) : result.2.Steady ∧ result.2.batches = m.batches := by
  cases h with
  | bad => exact ⟨hm, rfl⟩
  | left _ hrows hlist =>
    refine ⟨⟨?_, hlist.trans hm.list, hm.shutdown, hm.shutdownAtLoad⟩, rfl⟩
    have hids := hm.identifies
    unfold MemoryLedger.Identifies at hids ⊢
    rwa [hrows]
  | marked => exact ⟨⟨hm.identifies.marked _, hm.list, hm.shutdown, hm.shutdownAtLoad⟩, rfl⟩

/-- Processing partitions of a listing takes only good ones off it. -/
theorem badPartitions_processEach (horizon : Int) {ps : List Partition} (before : List Partition)
    (hm : m.Steady) (h : m.partitions tag = before ++ ps) :
    (collaborators.processEach horizon ps m).2.Steady ∧
      (collaborators.processEach horizon ps m).2.batches = m.batches ∧
      (collaborators.processEach horizon ps m).2.badPartitions horizon tag =
        m.badPartitions horizon tag := by
  induction ps generalizing before m with
  | nil => exact ⟨hm, rfl, rfl⟩
  | cons p ps ih =>
    rw [Collaborators.processEach_cons]
    have hends := processPartition_calm horizon p hm.calm
    obtain ⟨hsteady, hbatches⟩ := hends.steady hm
    generalize (collaborators.processPartition horizon p).effect m = first
      at hends hsteady hbatches ⊢
    have hkept : m.partitions tag = (before ++ [p]) ++ ps := by
      rw [h, List.append_assoc, List.singleton_append]
    cases hends with
    | bad => exact ih (before ++ [p]) hm hkept
    | @left _ l s _ hrows =>
      have hsame : partitions tag { m with ledger := l, store := s } = m.partitions tag := by
        unfold partitions MemoryLedger.pending
        rw [hrows]
      obtain ⟨hlater, hfiles, hbad⟩ := ih (before ++ [p]) hsteady (hsame.trans hkept)
      refine ⟨hlater, hfiles, hbad.trans ?_⟩
      unfold badPartitions
      rw [hsame]
    | @marked _ s hgood =>
      have hrest : partitions tag { m with ledger := m.ledger.marked p.ids, store := s } =
          before ++ ps := partitions_marked hm.identifies h
      obtain ⟨hlater, hfiles, hbad⟩ := ih before hsteady hrest
      refine ⟨hlater, hfiles, hbad.trans ?_⟩
      have hdropped : ¬isBad horizon m.batches p = true := by simp [hgood]
      unfold badPartitions
      rw [hrest, h, List.filter_append, List.filter_append, List.filter_cons_of_neg hdropped]

/-- If a partition is bad, so is every other one of its folder, since there is none. -/
theorem isBad_eq (hp : p ∈ m.partitions tag) : isBad horizon m.batches p =
    decide (p.key ∈ (m.badPartitions horizon tag).map Partition.key) := by
  rw [Bool.eq_iff_iff, decide_eq_true_iff]
  unfold badPartitions
  constructor
  · intro hbad
    exact List.mem_map_of_mem (List.mem_filter.mpr ⟨hp, hbad⟩)
  · intro hkey
    obtain ⟨q, hq, hqp⟩ := List.mem_map.mp hkey
    obtain ⟨hq, hbad⟩ := List.mem_filter.mp hq
    have hkeys : ((m.partitions tag).map Partition.key).Nodup := nodup_keys_groupPartitions _
    rwa [← List.inj_on_of_nodup_map hkeys hq hp hqp]

theorem mem_badObjects {o : SourceObject} (ho : o ∈ m.ledger.pending tag) :
    o ∈ m.badObjects horizon tag ↔
      folderOf o.path ∈ (m.badPartitions horizon tag).map Partition.key := by
  unfold badObjects
  have hobjects : ∀ p ∈ m.badPartitions horizon tag,
      (o ∈ p.objects ↔ folderOf o.path = p.key) := by
    intro p hp
    rw [(mem_groupPartitions.mp (List.mem_filter.mp hp).1).2, mem_inFolder]
    exact and_iff_right ho
  rw [List.mem_flatMap, List.mem_map]
  constructor
  · rintro ⟨p, hp, hop⟩
    exact ⟨p, hp, ((hobjects p hp).mp hop).symm⟩
  · rintro ⟨p, hp, hkey⟩
    exact ⟨p, hp, (hobjects p hp).mpr hkey.symm⟩

/-- Without the objects of bad partitions a cycle finds the good ones. -/
theorem partitions_without : (m.without (m.badObjects horizon tag)).partitions tag =
    (m.partitions tag).filter fun p => !isBad horizon m.batches p := by
  have hpending : (m.ledger.without (m.badObjects horizon tag)).pending tag =
      (m.ledger.pending tag).filter fun o =>
        folderOf o.path ∉ (m.badPartitions horizon tag).map Partition.key := by
    rw [MemoryLedger.pending_without]
    exact List.filter_congr fun o ho => decide_eq_decide.mpr (not_congr (mem_badObjects ho))
  change groupPartitions ((m.ledger.without (m.badObjects horizon tag)).pending tag) = _
  rw [hpending, groupPartitions_filter fun folder =>
    folder ∉ (m.badPartitions horizon tag).map Partition.key]
  refine List.filter_congr fun p hp => ?_
  rw [isBad_eq hp, decide_not]

/-! ## Partitions one after the other -/

/-- With and without bad partitions and some objects, good partitions end alike. -/
theorem processEach_without {ps : List Partition} {keys : List String}
    (objects : List SourceObject) (hm : m.Steady)
    (hkeys : ∀ p ∈ ps, isBad horizon m.batches p = decide (p.key ∈ keys)) :
    collaborators.processEach horizon (ps.filter fun p => !isBad horizon m.batches p)
        (m.without objects) =
      ((collaborators.processEach horizon ps m).1.filter fun o => o.partition ∉ keys,
        (collaborators.processEach horizon ps m).2.without objects) := by
  induction ps generalizing m with
  | nil => rfl
  | cons p ps ih =>
    obtain ⟨hfirst, hrest⟩ := List.forall_mem_cons.mp hkeys
    have hpartition := collaborators.partition_effect_processPartition horizon p m
    rw [collaborators.processEach_cons horizon p ps m]
    by_cases hbad : isBad horizon m.batches p = true
    · obtain ⟨fault, hfault⟩ := isBad_iff.mp hbad
      have hkey : p.key ∈ keys := of_decide_eq_true (hfirst ▸ hbad)
      rw [List.filter_cons_of_neg (by simp [hbad]),
        List.filter_cons_of_neg (by simp [hpartition, hkey]), processPartition_bad hm.calm hfault]
      exact ih hm hrest
    · have hkey : p.key ∉ keys := by
        intro hkey
        exact hbad (hfirst.trans (decide_eq_true hkey))
      obtain ⟨hsteady, hbatches⟩ :=
        (processPartition_calm horizon p hm.calm).steady hm
      rw [List.filter_cons_of_pos (by simp [hbad]),
        List.filter_cons_of_pos (by simp [hpartition, hkey]), Collaborators.processEach_cons,
        processPartition_without objects hm.calm]
      dsimp only [seen]
      rw [← hbatches] at hrest ⊢
      rw [ih hsteady hrest]

/-- A bad partition fails once. -/
theorem outcome_of_bad {ps : List Partition} {fault : Fault} (hm : m.Steady)
    (hkeys : (ps.map Partition.key).Nodup) (hp : p ∈ ps)
    (hfault : eventsAt horizon m.batches p = .error fault) :
    ((collaborators.processEach horizon ps m).1.filter fun o => o.partition = p.key) =
      [.failed p.key p.objects.length fault] := by
  induction ps generalizing m with
  | nil => exact absurd hp List.not_mem_nil
  | cons q ps ih =>
    obtain ⟨hfirst, hrest⟩ := List.nodup_cons.mp hkeys
    have hpartition := collaborators.partition_effect_processPartition horizon q m
    rw [Collaborators.processEach_cons]
    rcases List.mem_cons.mp hp with rfl | hp
    · have hnone : ∀ o ∈ (collaborators.processEach horizon ps m).1, ¬o.partition = p.key := by
        intro o ho hkey
        have hmem := List.mem_map_of_mem (f := Outcome.partition) ho
        rw [collaborators.partitions_processEach horizon ps m, hkey] at hmem
        exact hfirst hmem
      rw [processPartition_bad hm.calm hfault,
        List.filter_cons_of_pos (by simp [Outcome.partition]),
        List.filter_eq_nil_iff.mpr fun o ho => by simpa using hnone o ho]
    · have hother : q.key ≠ p.key := by
        intro hkey
        exact hfirst (hkey ▸ List.mem_map_of_mem hp)
      obtain ⟨hsteady, hbatches⟩ :=
        (processPartition_calm horizon q hm.calm).steady hm
      rw [List.filter_cons_of_neg (by simp [hpartition, hother])]
      rw [← hbatches] at hfault
      exact ih hsteady hrest hp hfault

/-! ## Cycles -/

theorem Steady.without (h : m.Steady) (objects : List SourceObject) :
    (m.without objects).Steady where
  identifies := h.identifies.sublist ((List.filter_sublist.map _).map _)
  list := h.list
  shutdown := h.shutdown
  shutdownAtLoad := h.shutdownAtLoad

theorem effect_runCycle_of_steady (horizon : Int) (tag : String) (h : m.Steady) :
    (collaborators.runCycle horizon tag).effect m =
      (.ok ⟨(collaborators.processEach horizon (m.partitions tag) m).1, 0⟩,
        (collaborators.processEach horizon (m.partitions tag) m).2) := by
  rw [effect_runCycle_of_list horizon tag h.list, effect_processAll_of_calm horizon _ h.calm]

/-- Without the objects of bad partitions, a cycle does what it does with them, but for the outcomes
of these partitions. -/
theorem runCycle_without (horizon : Int) (tag : String) (hm : m.Steady) :
    (collaborators.runCycle horizon tag).effect (m.without (m.badObjects horizon tag)) =
      (.ok ⟨(collaborators.processEach horizon (m.partitions tag) m).1.filter fun o =>
          o.partition ∉ (m.badPartitions horizon tag).map Partition.key, 0⟩,
        (collaborators.processEach horizon (m.partitions tag) m).2.without
          (m.badObjects horizon tag)) := by
  have hkeys : ∀ p ∈ m.partitions tag, isBad horizon m.batches p =
      decide (p.key ∈ (m.badPartitions horizon tag).map Partition.key) := fun p hp => isBad_eq hp
  have hgood := processEach_without (m.badObjects horizon tag) hm hkeys
  rw [effect_runCycle_of_steady horizon tag (hm.without _), partitions_without, hgood]

end

/-- Failures that are set between two cycles. -/
structure Sabotage where
  store : Option StatementGroup
  mark : Bool

/-- Failures that were set before and have not happened are still to come. -/
def sabotaged (f : Sabotage) (m : MemoryWorld) : MemoryWorld :=
  { m with
    ledger := { m.ledger with failNextMark := f.mark || m.ledger.failNextMark }
    store := { m.store with failNext := f.store.or m.store.failNext } }

theorem Steady.sabotaged {m : MemoryWorld} (h : m.Steady) (f : Sabotage) :
    (sabotaged f m).Steady :=
  ⟨h.identifies, h.list, h.shutdown, h.shutdownAtLoad⟩

/-- A world after some cycles, with failures set before each of them. -/
def afterSabotage (horizon : Int) (tag : String) (faults : Nat → Sabotage) (n : Nat)
    (m : MemoryWorld) : MemoryWorld :=
  collaborators.after (fun k => sabotaged (faults k)) horizon tag n m

theorem afterSabotage_succ (horizon : Int) (tag : String) (faults : Nat → Sabotage) (n : Nat)
    (m : MemoryWorld) : afterSabotage horizon tag faults (n + 1) m =
      ((collaborators.runCycle horizon tag).effect
        (sabotaged (faults n) (afterSabotage horizon tag faults n m))).2 := rfl

/-- What a world may lead to, and what it leads to without the objects of its bad partitions. -/
structure Apart (horizon : Int) (tag : String) (m full reduced : MemoryWorld) : Prop where
  steady : full.Steady
  batches : full.batches = m.batches
  bad : full.badPartitions horizon tag = m.badPartitions horizon tag
  reduced : reduced = full.without (m.badObjects horizon tag)

namespace Apart

variable {horizon : Int} {tag : String} {m full reduced : MemoryWorld}

theorem sabotaged (h : Apart horizon tag m full reduced) (f : Sabotage) :
    Apart horizon tag m (sabotaged f full) (MemoryWorld.sabotaged f reduced) where
  steady := h.steady.sabotaged f
  batches := h.batches
  bad := h.bad
  reduced := by
    rw [h.reduced]
    rfl

theorem badObjects_eq (h : Apart horizon tag m full reduced) :
    full.badObjects horizon tag = m.badObjects horizon tag := by
  unfold badObjects
  rw [h.bad]

/-- One cycle of both. -/
theorem runCycle (h : Apart horizon tag m full reduced) :
    ∃ report full', (collaborators.runCycle horizon tag).effect full = (.ok report, full') ∧
      (collaborators.runCycle horizon tag).effect reduced =
        (.ok { report with
          outcomes := report.outcomes.filter fun o =>
            o.partition ∉ (m.badPartitions horizon tag).map Partition.key },
          full'.without (m.badObjects horizon tag)) ∧
      report.outcomes = (collaborators.processEach horizon (full.partitions tag) full).1 ∧
      Apart horizon tag m full' (full'.without (m.badObjects horizon tag)) := by
  have hwithout := runCycle_without horizon tag h.steady
  rw [h.badObjects_eq, h.bad, ← h.reduced] at hwithout
  obtain ⟨hsteady, hbatches, hbad⟩ := badPartitions_processEach horizon [] h.steady
    (List.nil_append (full.partitions tag)).symm
  exact ⟨_, _, effect_runCycle_of_steady horizon tag h.steady, hwithout, rfl, hsteady,
    hbatches.trans h.batches, hbad.trans h.bad, rfl⟩

/-- Nothing of a bad partition has been processed. -/
theorem processed (h : Apart horizon tag m full reduced) :
    reduced.ledger.rows.filter LedgerRow.processed =
      full.ledger.rows.filter LedgerRow.processed := by
  have hunprocessed : ∀ r ∈ full.ledger.rows, r.processed = true →
      r.object ∉ full.badObjects horizon tag := by
    intro r hr hprocessed hbad
    obtain ⟨p, hp, hobject⟩ := List.mem_flatMap.mp hbad
    rw [(mem_groupPartitions.mp (List.mem_filter.mp hp).1).2, mem_inFolder] at hobject
    obtain ⟨r', hr', hsame⟩ := List.mem_map.mp hobject.1
    obtain ⟨hr', hpending⟩ := List.mem_filter.mp hr'
    have hids := h.steady.identifies
    unfold MemoryLedger.Identifies at hids
    rw [List.map_map] at hids
    obtain rfl := List.inj_on_of_nodup_map hids hr' hr (congrArg SourceObject.id hsame)
    simp [hprocessed] at hpending
  rw [h.reduced, ← h.badObjects_eq]
  unfold without MemoryLedger.without
  rw [List.filter_filter]
  refine List.filter_congr fun r hr => ?_
  by_cases hprocessed : r.processed = true
  · simp [hprocessed, hunprocessed r hr hprocessed]
  · simp [hprocessed]

end Apart

section

variable (horizon : Int) (tag : String) (faults : Nat → Sabotage) {m : MemoryWorld}

theorem apart_afterSabotage (hm : m.Steady) (n : Nat) :
    Apart horizon tag m (afterSabotage horizon tag faults n m)
      (afterSabotage horizon tag faults n (m.without (m.badObjects horizon tag))) := by
  induction n with
  | zero => exact ⟨hm, rfl, rfl, rfl⟩
  | succ n ih =>
    obtain ⟨report, full', hfull, hreduced, -, happart⟩ := (ih.sabotaged (faults n)).runCycle
    rw [afterSabotage_succ, afterSabotage_succ, hfull, hreduced]
    exact happart

/-- Bad partitions stay out of it. In every cycle of a run, whatever failures of the store and of
the ledger wait at its start and are set between the cycles, the good partitions end as they do in
the run without the objects of bad partitions, in the same order, and the store, the processed
objects and the count of markings are the same there. Each bad partition fails once in each cycle,
because it cannot be loaded or cannot be read. An id stands for one object, as it does in every
ledger that is made from paths, and in what cycles make of it (`Reachable.identifies`). -/
theorem bad_partitions_apart (hids : m.ledger.Identifies) (hlist : m.ledger.failNextList = false)
    (hshutdown : m.shutdown = false) (hload : m.shutdownAtLoad = none) (n : Nat) :
    let bad := m.badPartitions horizon tag
    let full := afterSabotage horizon tag faults n m
    let reduced := afterSabotage horizon tag faults n (m.without (m.badObjects horizon tag))
    reduced.store = full.store ∧
      reduced.ledger.rows.filter LedgerRow.processed =
        full.ledger.rows.filter LedgerRow.processed ∧
      reduced.ledger.markCalls = full.ledger.markCalls ∧
      ∃ report report',
        ((collaborators.runCycle horizon tag).effect (sabotaged (faults n) full)).1 = .ok report ∧
        ((collaborators.runCycle horizon tag).effect (sabotaged (faults n) reduced)).1 =
          .ok report' ∧
        report'.outcomes = report.outcomes.filter (fun o => o.partition ∉ bad.map Partition.key) ∧
        ∀ p ∈ bad, ∃ fault : Fault, (fault.kind = "load" ∨ fault.kind = "type_coercion") ∧
          (report.outcomes.filter fun o => o.partition = p.key) =
            [.failed p.key p.objects.length fault] := by
  intro bad full reduced
  have hapart : Apart horizon tag m full reduced :=
    apart_afterSabotage horizon tag faults ⟨hids, hlist, hshutdown, hload⟩ n
  have hstore : reduced.store = full.store := by rw [hapart.reduced]; rfl
  have hcalls : reduced.ledger.markCalls = full.ledger.markCalls := by rw [hapart.reduced]; rfl
  have hset := hapart.sabotaged (faults n)
  obtain ⟨report, full', hcycle, hcycle', houtcomes, -⟩ := hset.runCycle
  refine ⟨hstore, hapart.processed, hcalls, report, _, congrArg Prod.fst hcycle,
    congrArg Prod.fst hcycle', rfl, ?_⟩
  intro p hp
  have hfound : p ∈ (sabotaged (faults n) full).badPartitions horizon tag := hset.bad ▸ hp
  obtain ⟨hlisted, hbad⟩ := List.mem_filter.mp hfound
  obtain ⟨fault, hfault⟩ := isBad_iff.mp hbad
  refine ⟨fault, kind_of_prepared hfault, ?_⟩
  rw [houtcomes]
  exact outcome_of_bad hset.steady (nodup_keys_groupPartitions _) hlisted hfault

end

/-- Two folders, one of which cannot be read. The first insert and the first marking fail. -/
def sampleUnreadable : MemoryWorld :=
  ⟨{ MemoryLedger.ofPaths Feed.sampleFeed.paths with failNextMark := true },
    Feed.sampleFeed.batches, (MemoryStore.ofEvents []).failOnce .insert, false, none⟩

theorem badPartitions_sampleUnreadable :
    sampleUnreadable.badPartitions 120 "tu" = [⟨"tu/b", [⟨2, "tu/b/2"⟩]⟩] := by
  have hpartitions : sampleUnreadable.partitions "tu" =
      [⟨"tu/a", [⟨1, "tu/a/1"⟩]⟩, ⟨"tu/b", [⟨2, "tu/b/2"⟩]⟩] := partitions_sampleCut
  have hgood : isBad 120 sampleUnreadable.batches ⟨"tu/a", [⟨1, "tu/a/1"⟩]⟩ = false := by
    have hevents : eventsAt 120 sampleUnreadable.batches ⟨"tu/a", [⟨1, "tu/a/1"⟩]⟩ =
        .ok [.predicted Feed.sampleVisit 1735700060] := Feed.events_sampleFeed
    unfold isBad
    rw [hevents]
    rfl
  have hbad : isBad 120 sampleUnreadable.batches ⟨"tu/b", [⟨2, "tu/b/2"⟩]⟩ = true := rfl
  unfold badPartitions
  rw [hpartitions, List.filter_cons_of_neg (by simp [hgood]), List.filter_cons_of_pos hbad,
    List.filter_nil]

theorem bad_partitions_apart_of_unreadable :
    sampleUnreadable.ledger.Identifies ∧ sampleUnreadable.ledger.failNextList = false ∧
    sampleUnreadable.shutdown = false ∧ sampleUnreadable.shutdownAtLoad = none ∧
    ∃ report report' fault,
      ((collaborators.runCycle 120 "tu").effect (sabotaged ⟨none, false⟩
        (afterSabotage 120 "tu" (fun _ => ⟨none, false⟩) 2 sampleUnreadable))).1 = .ok report ∧
      ((collaborators.runCycle 120 "tu").effect (sabotaged ⟨none, false⟩
        (afterSabotage 120 "tu" (fun _ => ⟨none, false⟩) 2
          (sampleUnreadable.without [⟨2, "tu/b/2"⟩])))).1 = .ok report' ∧
      report'.outcomes = report.outcomes.filter (fun o => o.partition ∉ ["tu/b"]) ∧
      (report.outcomes.filter fun o => o.partition = "tu/b") = [.failed "tu/b" 1 fault] := by
  have hids : sampleUnreadable.ledger.Identifies := by
    unfold MemoryLedger.Identifies
    decide
  obtain ⟨-, -, -, report, report', hfull, hreduced, hothers, hbad⟩ := bad_partitions_apart 120 "tu"
    (fun _ => ⟨none, false⟩) hids rfl rfl rfl 2
  rw [badPartitions_sampleUnreadable] at hothers hbad
  have hobjects : sampleUnreadable.badObjects 120 "tu" = [⟨2, "tu/b/2"⟩] := by
    unfold badObjects
    rw [badPartitions_sampleUnreadable]
    rfl
  rw [hobjects] at hreduced
  obtain ⟨fault, -, hfailed⟩ := hbad _ (List.mem_singleton_self _)
  exact ⟨hids, rfl, rfl, rfl, report, report', fault, hfull, hreduced, hothers, hfailed⟩

end MemoryWorld

end StopArrivals
