import StopArrivals.Proofs.Interference
import StopArrivals.Proofs.Shutdown

/-!
# Cycles that resume

On a world where nothing is set to fail, a partition is either processed, or there is nothing to
merge and the world stays as it is (`MemoryWorld.processPartition_quiet`). What was processed is
listed no more, so a cycle that follows one that was cut short finds the partitions that were left,
and before them those that failed. These fail again and change nothing; the others are processed as
the first cycle would have done (`MemoryWorld.resume`).
-/

namespace StopArrivals

variable {σ ω α : Type}

/-! ## Merges within a larger state -/

/-- A component can be read back, and a new one takes the place of the old one. -/
structure Part.Lawful (p : Part ω σ) : Prop where
  get_put : ∀ s w, p.get (p.put s w) = s
  put_get : ∀ w, p.put (p.get w) w = w
  put_put : ∀ s s' w, p.put s (p.put s' w) = p.put s w

namespace Part.Lawful

variable {p : Part ω σ}

theorem shows_within (h : p.Lawful) (S : EventStore σ) : (S.within p).Shows p.get S where
  select _ w := Prod.ext rfl (h.get_put _ w)
  update _ w := Prod.ext rfl (h.get_put _ w)
  delete _ w := Prod.ext rfl (h.get_put _ w)
  insert _ w := Prod.ext rfl (h.get_put _ w)

theorem effect_mergeEvents (h : p.Lawful) (S : EventStore σ) (events : List Event) (w : ω) :
    (mergeEvents (S.within p) events).run.effect w =
      p.lift (mergeEvents S events).run.effect w := by
  have hshows := (h.shows_within S).effect_mergeEvents events w
  -- The rest of the state shows in what comes out when another component is put in.
  have hput : (S.within p).Obeys fun w w' => (fun s => p.put s w') = fun s => p.put s w :=
    S.obeys_within fun s' w => funext fun s => h.put_put s s' w
  have hrest := hput.merge events w
  generalize (mergeEvents (S.within p) events).run.effect w = result at hshows hrest ⊢
  obtain ⟨hanswer, hcomponent⟩ := Prod.mk.inj hshows
  refine Prod.ext hanswer ?_
  calc result.2 = p.put (p.get result.2) result.2 := (h.put_get result.2).symm
    _ = p.put (p.get result.2) w := congrFun hrest _
    _ = p.put ((mergeEvents S events).run.effect (p.get w)).2 w := by
      rw [hcomponent]
      rfl

end Part.Lawful

/-! ## Objects that are marked -/

namespace MemoryLedger

/-- The ledger after a call that marks objects. -/
def marked (ids : List Int) (l : MemoryLedger) : MemoryLedger :=
  { l with rows := l.rows.map (markRow ids), markCalls := l.markCalls + 1 }

theorem list_succeeds {l : MemoryLedger} (h : l.failNextList = false) (tag : String) :
    list tag l = (.ok (l.pending tag), l) := by
  unfold list
  exact if_neg (by simp [h])

theorem mark_succeeds {l : MemoryLedger} (h : l.failNextMark = false) (ids : List Int) :
    ∃ n, mark ids l = (.ok n, l.marked ids) := by
  unfold mark
  exact ⟨_, if_neg (by simp [h])⟩

/-- The ledger after a marking that fails. It counts as a call. -/
def unmarked (l : MemoryLedger) : MemoryLedger :=
  { l with failNextMark := false, markCalls := l.markCalls + 1 }

theorem mark_fails {l : MemoryLedger} (h : l.failNextMark = true) (ids : List Int) :
    mark ids l = (.error (.plain "injected ledger failure"), l.unmarked) := by
  unfold mark
  exact if_pos h

theorem object_markRow (ids : List Int) (r : LedgerRow) : (markRow ids r).object = r.object := by
  unfold markRow
  split <;> rfl

theorem objects_marked (ids : List Int) (l : MemoryLedger) :
    (l.marked ids).rows.map LedgerRow.object = l.rows.map LedgerRow.object := by
  unfold marked
  rw [List.map_map]
  exact List.map_congr_left fun r _ => object_markRow ids r

/-- What is marked is listed no more. -/
theorem pending_marked (tag : String) (ids : List Int) (l : MemoryLedger) :
    (l.marked ids).pending tag = (l.pending tag).filter fun o => o.id ∉ ids := by
  unfold pending marked
  rw [List.filter_map, List.map_map, List.filter_map, List.filter_filter]
  have hobject : LedgerRow.object ∘ markRow ids = LedgerRow.object :=
    funext fun r => object_markRow ids r
  rw [hobject]
  refine congrArg (List.map LedgerRow.object) (List.filter_congr fun r _ => ?_)
  rw [Function.comp_apply, Function.comp_apply, markRow]
  by_cases hid : r.object.id ∈ ids
  · simp [hid]
  · simp [hid]

/-- An id stands for one object. -/
def Identifies (l : MemoryLedger) : Prop :=
  ((l.rows.map LedgerRow.object).map SourceObject.id).Nodup

theorem Identifies.marked {l : MemoryLedger} (h : l.Identifies) (ids : List Int) :
    (l.marked ids).Identifies := by
  unfold Identifies
  rw [objects_marked]
  exact h

/-- Marking a partition of a listing takes its folder off the list. -/
theorem Identifies.pending_marked {tag : String} {l : MemoryLedger} {p : Partition}
    (hids : l.Identifies) (hp : p ∈ groupPartitions (l.pending tag)) :
    (l.marked p.ids).pending tag = (l.pending tag).filter fun o => folderOf o.path ≠ p.key := by
  rw [MemoryLedger.pending_marked]
  refine List.filter_congr fun o ho => ?_
  have hlisted : ((l.pending tag).map SourceObject.id).Nodup :=
    hids.sublist ((List.filter_sublist.map _).map _)
  have hmem : o.id ∈ p.ids ↔ folderOf o.path = p.key := by
    unfold Partition.ids
    rw [(mem_groupPartitions.mp hp).2, List.mem_map]
    constructor
    · rintro ⟨x, hx, hid⟩
      obtain ⟨hx, hfolder⟩ := mem_inFolder.mp hx
      exact List.inj_on_of_nodup_map hlisted hx ho hid ▸ hfolder
    · intro hfolder
      exact ⟨o, mem_inFolder.mpr ⟨ho, hfolder⟩, rfl⟩
  exact decide_eq_decide.mpr (not_congr hmem)

end MemoryLedger

namespace MemoryWorld

theorem lawful_storePart : storePart.Lawful := ⟨fun _ _ => rfl, fun _ => rfl, fun _ _ _ => rfl⟩

/-! ## A partition -/

/-- The events of a partition, from the files of a world. -/
def eventsAt (horizon : Int) (batches : MemoryBatches) (p : Partition) :
    Except Fault (List Event) :=
  prepared horizon (batches.load tripUpdateColumns tripUpdateFilters p.paths)

/-- What merging a partition answers, and the store that it leaves. -/
def mergeOf (horizon : Int) (batches : MemoryBatches) (p : Partition) (s : MemoryStore) :
    Except Fault MergeReport × MemoryStore :=
  following (eventsAt horizon batches p, s) fun events s =>
    (mergeEvents MemoryStore.store events).run.effect s

/-- What is left to do for a partition when its merge has ended. -/
def conclude (p : Partition) (m : MemoryWorld) :
    Except Fault MergeReport × MemoryStore → Outcome × MemoryWorld
  | (.error fault, s) => (.failed p.key p.objects.length fault, { m with store := s })
  | (.ok report, s) =>
    match MemoryLedger.mark p.ids m.ledger with
    | (.error cause, l) => (.unmarked p.key p.objects.length report (.ledger cause),
        { m with ledger := l, store := s })
    | (.ok _, l) => (.processed p.key p.objects.length report,
        { m with ledger := l, store := s })

section

variable {horizon : Int} {p : Partition} {m : MemoryWorld}

theorem conclude_of_marking (h : m.ledger.failNextMark = false) (report : MergeReport)
    (s : MemoryStore) :
    conclude p m (.ok report, s) = (.processed p.key p.objects.length report,
      { m with ledger := m.ledger.marked p.ids, store := s }) := by
  obtain ⟨n, hmark⟩ := MemoryLedger.mark_succeeds h p.ids
  unfold conclude
  dsimp only
  rw [hmark]

theorem conclude_of_failed_marking (h : m.ledger.failNextMark = true) (report : MergeReport)
    (s : MemoryStore) :
    conclude p m (.ok report, s) =
      (.unmarked p.key p.objects.length report (.ledger (.plain "injected ledger failure")),
        { m with ledger := m.ledger.unmarked, store := s }) := by
  unfold conclude
  dsimp only
  rw [MemoryLedger.mark_fails h]

theorem effect_processPartition (horizon : Int) (p : Partition) (m : MemoryWorld) :
    (collaborators.processPartition horizon p).effect m =
      conclude p m.countLoad (mergeOf horizon m.batches p m.store) := by
  have hmerge : (collaborators.loadAndMerge horizon p).run.effect m =
      ((mergeOf horizon m.batches p m.store).1,
        { m.countLoad with store := (mergeOf horizon m.batches p m.store).2 }) := by
    rw [Collaborators.effect_loadAndMerge, loadOf_eq, ← m.store_countLoad]
    unfold mergeOf eventsAt
    cases prepared horizon (m.batches.load tripUpdateColumns tripUpdateFilters p.paths) with
    | error fault => rfl
    | ok events => exact lawful_storePart.effect_mergeEvents MemoryStore.store events m.countLoad
  rw [Collaborators.effect_processPartition, hmerge]
  rcases mergeOf horizon m.batches p m.store with ⟨fault | report, s⟩
  · rfl
  · have hmark : collaborators.ledger.mark p.ids { m.countLoad with store := s } =
        ((MemoryLedger.mark p.ids m.countLoad.ledger).1,
          { m.countLoad with
            ledger := (MemoryLedger.mark p.ids m.countLoad.ledger).2, store := s }) := rfl
    unfold conclude
    dsimp only
    rw [hmark]
    rcases MemoryLedger.mark p.ids m.countLoad.ledger with ⟨cause | n, l⟩ <;> rfl

theorem effect_processPartition_of_calm (h : m.calm = m) :
    (collaborators.processPartition horizon p).effect m =
      conclude p m (mergeOf horizon m.batches p m.store) := by
  rw [effect_processPartition, countLoad_of_calm h]

theorem processPartition_bad {fault : Fault} (h : m.calm = m)
    (hfault : eventsAt horizon m.batches p = .error fault) :
    (collaborators.processPartition horizon p).effect m =
      (.failed p.key p.objects.length fault, m) := by
  have hmerge : mergeOf horizon m.batches p m.store = (.error fault, m.store) := by
    unfold mergeOf
    rw [hfault, following_error]
  rw [effect_processPartition_of_calm h, hmerge]
  rfl

end

/-! ## A partition of a quiet world -/

theorem calm_of_quiet {m : MemoryWorld} (h : Quiet m) : m.calm = m :=
  calm_eq_self h.shutdown h.shutdownAtLoad

/-- How a partition ends where nothing is set to fail. -/
inductive QuietEnds (horizon : Int) (p : Partition) (m : MemoryWorld) :
    Outcome × MemoryWorld → Prop where
  /-- There is nothing to merge. -/
  | failed {fault : Fault} (hfault : eventsAt horizon m.batches p = .error fault) :
    QuietEnds horizon p m (.failed p.key p.objects.length fault, m)
  | processed {events : List Event} {report : MergeReport} {s : MemoryStore}
    (hevents : eventsAt horizon m.batches p = .ok events)
    (htable : s.table = m.store.table.merged events) (hfail : s.failNext = none) :
    QuietEnds horizon p m (.processed p.key p.objects.length report,
      { m with ledger := m.ledger.marked p.ids, store := s })

theorem processPartition_quiet (horizon : Int) (p : Partition) {m : MemoryWorld} (h : Quiet m) :
    QuietEnds horizon p m ((collaborators.processPartition horizon p).effect m) := by
  cases hevents : eventsAt horizon m.batches p with
  | error fault =>
    rw [processPartition_bad (calm_of_quiet h) hevents]
    exact .failed hevents
  | ok events =>
    obtain ⟨report, s, hmerge, htable, hfail⟩ := MemoryStore.merge_succeeds h.store events
    have hmerged : mergeOf horizon m.batches p m.store = (.ok report, s) := by
      unfold mergeOf
      rw [hevents, following_ok, hmerge]
    rw [effect_processPartition_of_calm (calm_of_quiet h), hmerged, conclude_of_marking h.mark]
    exact .processed hevents htable hfail

theorem QuietEnds.quiet {horizon : Int} {p : Partition} {m : MemoryWorld}
    {result : Outcome × MemoryWorld} (h : QuietEnds horizon p m result) (hm : Quiet m) :
    Quiet result.2 := by
  cases h with
  | failed => exact hm
  | processed _ _ hfail => exact ⟨hm.list, hm.mark, hfail, hm.shutdown, hm.shutdownAtLoad⟩

/-! ## The cycle after -/

/-- The partitions that a cycle finds. -/
def partitions (tag : String) (m : MemoryWorld) : List Partition :=
  groupPartitions (m.ledger.pending tag)

section

variable {horizon : Int} {tag : String} {m : MemoryWorld}

/-- When a partition is marked, all others are left in their order. -/
theorem partitions_marked {before after : List Partition} {p : Partition}
    (hids : m.ledger.Identifies) (h : m.partitions tag = before ++ p :: after) :
    groupPartitions ((m.ledger.marked p.ids).pending tag) = before ++ after := by
  have hp : p ∈ m.partitions tag := by simp [h]
  have hkeys : ((m.partitions tag).map Partition.key).Nodup := nodup_keys_groupPartitions _
  rw [h, List.map_append, List.map_cons, List.nodup_middle, List.nodup_cons] at hkeys
  have hother : ∀ q ∈ before ++ after, q.key ≠ p.key := by
    intro q hq heq
    have hmem : q.key ∈ (before ++ after).map Partition.key := List.mem_map_of_mem hq
    rw [List.map_append, heq] at hmem
    exact hkeys.1 hmem
  rw [hids.pending_marked hp, groupPartitions_filter fun folder => folder ≠ p.key]
  change (m.partitions tag).filter _ = _
  rw [h, List.filter_append, List.filter_cons_of_neg (by simp), ← List.filter_append]
  exact List.filter_eq_self.mpr fun q hq => decide_eq_true (hother q hq)

/-- Partitions without anything to merge change nothing. -/
theorem processEach_bad {ps : List Partition} (hm : Quiet m)
    (hbad : ∀ p ∈ ps, ∃ fault, eventsAt horizon m.batches p = .error fault) :
    (collaborators.processEach horizon ps m).2 = m := by
  induction ps with
  | nil => rfl
  | cons p ps ih =>
    rw [Collaborators.processEach_cons]
    have hends := processPartition_quiet horizon p hm
    generalize (collaborators.processPartition horizon p).effect m = first at hends ⊢
    cases hends with
    | failed => exact ih fun q hq => hbad q (List.mem_cons_of_mem _ hq)
    | processed hevents =>
      obtain ⟨fault, hfault⟩ := hbad p (List.mem_cons_self ..)
      cases hfault.symm.trans hevents

/-- When some partitions have been processed, a listing gives those among them that failed, and then
the rest. -/
theorem partitions_processEach : ∀ (ps bad : List Partition) {rest : List Partition}
    {m : MemoryWorld}, Quiet m → m.ledger.Identifies →
      (∀ p ∈ bad, ∃ fault, eventsAt horizon m.batches p = .error fault) →
      m.partitions tag = bad ++ (ps ++ rest) →
      ∃ bad', Quiet (collaborators.processEach horizon ps m).2 ∧
        (∀ p ∈ bad', ∃ fault, eventsAt horizon
          (collaborators.processEach horizon ps m).2.batches p = .error fault) ∧
        (collaborators.processEach horizon ps m).2.partitions tag = bad' ++ rest
  | [], bad, rest, m, hm, _, hbad, h => ⟨bad, hm, hbad, h⟩
  | p :: ps, bad, rest, m, hm, hids, hbad, h => by
      rw [Collaborators.processEach_cons]
      have hends := processPartition_quiet horizon p hm
      have hquiet := hends.quiet hm
      generalize (collaborators.processPartition horizon p).effect m = first at hends hquiet ⊢
      cases hends with
      | failed hfault =>
        refine partitions_processEach ps (bad ++ [p]) hm hids ?_ ?_
        · intro q hq
          rcases List.mem_append.mp hq with hq | hq
          · exact hbad q hq
          · obtain rfl := List.mem_singleton.mp hq
            exact ⟨_, hfault⟩
        · rw [h, List.append_assoc, List.singleton_append, List.cons_append]
      | processed =>
        exact partitions_processEach ps bad hquiet (hids.marked p.ids) hbad (partitions_marked hids h)

/-- A cycle that finds what another one has left does what that one would have done. -/
theorem resume {ps rest : List Partition} (hm : Quiet m) (hids : m.ledger.Identifies)
    (h : m.partitions tag = ps ++ rest) :
    (collaborators.processEach horizon ((collaborators.processEach horizon ps m).2.partitions tag)
        (collaborators.processEach horizon ps m).2).2 =
      (collaborators.processEach horizon (m.partitions tag) m).2 := by
  obtain ⟨bad, hquiet, hbad, hleft⟩ := partitions_processEach ps [] hm hids
    (fun p hp => absurd hp List.not_mem_nil) h
  rw [hleft, h, Collaborators.processEach_append, Collaborators.processEach_append,
    processEach_bad hquiet hbad]

end

end MemoryWorld

end StopArrivals
