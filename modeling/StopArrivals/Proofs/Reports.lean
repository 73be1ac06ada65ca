import StopArrivals.Proofs.Interference
import StopArrivals.Proofs.PlanApplication
import StopArrivals.Proofs.Reconciliation

/-!
# What a merge reports

The counts in a report come from different places: how many events there were, how many rows the
store found for them, and what each group of statements answers. If a store keeps a table and counts
as the table would, they are all known from the plan (`EventStore.Keeps.report_eq`): every row that
is updated or deleted is there, and no id is named twice. A partition has a report only if its
merge is done, and then it is that one (`Interference.processPartition_reports`).
-/

namespace StopArrivals

section

variable {σ α β ε : Type}

theorem of_following_eq_ok {x : Except ε α × σ} {f : α → σ → Except ε β × σ} {b : β} {s' : σ}
    (h : following x f = (.ok b, s')) : ∃ a s, x = (.ok a, s) ∧ f a s = (.ok b, s') := by
  obtain ⟨_ | a, s⟩ := x
  · cases h
  · exact ⟨a, s, rfl, h⟩

/-! ## Stores that count -/

/-- What the groups of statements answer if they succeed. -/
structure EventStore.Counts (S : EventStore σ) (table : σ → EventTable) : Prop where
  update : ∀ {updates s n s'}, groupCall .update updates S.update s = (.ok n, s') →
    n = (updates.filter fun u => u.id ∈ (table s).rows.map StoredEvent.id).length
  delete : ∀ {ids s n s'}, groupCall .delete ids S.delete s = (.ok n, s') →
    n = (((table s).rows.map StoredEvent.id).filter (· ∈ ids)).length
  insert : ∀ {events s n s'}, groupCall .insert events S.insert s = (.ok n, s') → n = events.length

end

namespace MemoryStore

theorem GroupRuns.count_eq {group : StatementGroup} {blocked : Prop} {count n : Nat}
    {t : EventTable} {s s' : MemoryStore} {result : Except Fault Nat × MemoryStore}
    (h : GroupRuns group blocked count t s result) (hresult : result = (.ok n, s')) :
    n = count := by
  subst hresult
  cases h with
  | served hfree => rfl

theorem counts : store.Counts MemoryStore.table where
  update {updates s _ _} h := (update_runs updates s).count_eq h
  delete {ids s _ _} h := (delete_runs ids s).count_eq h
  insert {events s _ _} h := (insert_runs events s).count_eq h

end MemoryStore

namespace Interference

variable {i : Interference}

/-- A group under interference answers what the store in memory does. -/
theorem groupCall_further {α : Type} {group : StatementGroup} {items : List α}
    (call : List α → Call MemoryStore Nat) {w w' : DisturbedWorld} {n : Nat}
    (h : groupCall group items (fun items => i.further (MemoryWorld.storePart.lift (call items))) w =
      (.ok n, w')) :
    ∃ s', groupCall group items call (i.enter w.cycle (w.call + 1) w).world.store =
      (.ok n, s') := by
  rw [groupCall] at h ⊢
  split at h
  · next hempty =>
    rw [if_pos hempty]
    exact ⟨_, congrArg (·, _) (Prod.mk.inj h).1⟩
  · next hsome =>
    rw [if_neg hsome, mergeCall]
    have hanswer : (call items (i.enter w.cycle (w.call + 1) w).world.store).1 = .ok n :=
      congrArg Prod.fst (eq_of_mergeCall_eq_ok h)
    generalize call items (i.enter w.cycle (w.call + 1) w).world.store = result at hanswer
    obtain ⟨answer, s⟩ := result
    obtain rfl : answer = .ok n := hanswer
    exact ⟨s, rfl⟩

theorem counts : i.collaborators.store.Counts DisturbedWorld.table where
  update {updates w _ _} h := by
    obtain ⟨s', hs⟩ := groupCall_further MemoryStore.store.update h
    rw [← i.table_enter w.cycle (w.call + 1) w]
    exact MemoryStore.counts.update hs
  delete {ids w _ _} h := by
    obtain ⟨s', hs⟩ := groupCall_further MemoryStore.store.delete h
    rw [← i.table_enter w.cycle (w.call + 1) w]
    exact MemoryStore.counts.delete hs
  insert {events w _ _} h := by
    obtain ⟨s', hs⟩ := groupCall_further MemoryStore.store.insert h
    exact MemoryStore.counts.insert hs

end Interference

/-! ## The report -/

namespace EventTable

variable {t : EventTable} {events : List Event}

/-- What a merge of the events into the table has to report. -/
def reportOf (t : EventTable) (events : List Event) : MergeReport :=
  ⟨events.length, (t.selected events).length, (t.plan events).updates.length,
    (t.plan events).deletes.length, (t.plan events).inserts.length⟩

theorem reportOf_nil (t : EventTable) : t.reportOf [] = .none := by
  have hselected : t.selected [] = [] := by simp [selected]
  have hplan : planMerge [] [] = ⟨[], [], []⟩ := by simp [planMerge, mergeRuns]
  rw [reportOf, plan, hselected, hplan]
  rfl

theorem nodup_ids_selected (t : EventTable) (events : List Event) :
    ((t.selected events).map (·.id)).Nodup :=
  t.nodup_ids.sublist (List.filter_sublist.map _)

/-- Every row that is to be updated is there. -/
theorem filter_updates : ((t.plan events).updates.filter fun u =>
    u.id ∈ t.rows.map StoredEvent.id) = (t.plan events).updates := by
  refine List.filter_eq_self.mpr fun u hu => decide_eq_true ?_
  obtain ⟨r, hr, -, -, hid, -⟩ := mem_plan_updates.mp hu
  exact hid ▸ List.mem_map_of_mem hr

/-- Every row that is to be deleted is there, and none is named twice. -/
theorem deletes_perm : ((t.rows.map StoredEvent.id).filter (· ∈ (t.plan events).deletes)).Perm
    (t.plan events).deletes := by
  refine (List.perm_ext_iff_of_nodup (t.nodup_ids.filter _)
    (nodup_deletes (t.nodup_ids_selected events))).mpr fun i => ?_
  rw [List.mem_filter, decide_eq_true_eq]
  refine and_iff_right_of_imp fun hi => ?_
  obtain ⟨r, hr, -, rfl, -⟩ := mem_plan_deletes.mp hi
  exact List.mem_map_of_mem hr

/-! ## How the counts go together -/

/-- A fingerprint of the events is either updated or inserted. -/
theorem updates_add_inserts : (t.plan events).updates.length + (t.plan events).inserts.length =
    (events.map Event.fingerprint).dedup.length := by
  obtain ⟨fs, hfs, hupdate, hupdates⟩ :
      OneForEach (UpdateDue (t.selected events) events) _ (t.plan events).updates :=
    updates_planMerge
  obtain ⟨gs, hgs, hinsert, hinserts⟩ :
      OneForEach (InsertDue (t.selected events) events) _ (t.plan events).inserts :=
    inserts_planMerge
  have hdisjoint : fs.Disjoint gs := fun f hf hg =>
    ((hupdate f).mp hf).1 ((hinsert f).mp hg).1
  rw [← hupdates.length_eq, ← hinserts.length_eq, ← List.length_append]
  refine List.Perm.length_eq ((List.perm_ext_iff_of_nodup
    (List.nodup_append'.mpr ⟨hfs.nodup, hgs.nodup, hdisjoint⟩) (List.nodup_dedup _)).mpr
      fun f => ?_)
  rw [List.mem_append, hupdate, hinsert, List.mem_dedup]
  by_cases hrows : rowsOf f (t.selected events) = []
  · simp [UpdateDue, InsertDue, hrows, eventsOf_eq_nil_iff]
  · -- The event that has the fingerprint is one more entry beside the row.
    obtain ⟨r, hr⟩ := List.exists_mem_of_ne_nil _ hrows
    obtain ⟨hselected, rfl⟩ := mem_rowsOf.mp hr
    have hf := (mem_selected.mp hselected).2
    have hevents : eventsOf r.event.fingerprint events ≠ [] :=
      fun hnone => eventsOf_eq_nil_iff.mp hnone hf
    have hrow := List.length_pos_of_ne_nil hrows
    have hevent := List.length_pos_of_ne_nil hevents
    exact iff_of_true (.inl ⟨hrows, by omega⟩) hf

/-- A row that is met is either updated or deleted. -/
theorem updates_add_deletes : (t.plan events).updates.length + (t.plan events).deletes.length =
    (t.selected events).length := by
  have hids := t.nodup_ids_selected events
  have hperm : ((t.plan events).updates.map (·.id) ++ (t.plan events).deletes).Perm
      ((t.selected events).map (·.id)) := by
    refine (List.perm_ext_iff_of_nodup (List.nodup_append'.mpr ⟨nodup_updates hids,
      nodup_deletes hids, disjoint_updates_deletes hids⟩) hids).mpr fun i => ?_
    rw [List.mem_append, List.mem_map, List.mem_map]
    constructor
    · rintro (⟨u, hu, rfl⟩ | hi)
      · obtain ⟨r, hr, hf, -, hid, -⟩ := mem_plan_updates.mp hu
        exact ⟨r, mem_selected.mpr ⟨hr, hf⟩, hid.symm⟩
      · obtain ⟨r, hr, hf, rfl, -⟩ := mem_plan_deletes.mp hi
        exact ⟨r, mem_selected.mpr ⟨hr, hf⟩, rfl⟩
    · rintro ⟨r, hselected, rfl⟩
      obtain ⟨hr, hf⟩ := mem_selected.mp hselected
      by_cases hlead : Leads t.rows r
      · obtain ⟨time, htime⟩ : ∃ time, latest? r.event.fingerprint t.rows events = some time :=
          exists_latest (.inl ⟨r, hr, rfl⟩)
        exact .inl ⟨⟨r.id, time⟩, mem_plan_updates.mpr ⟨r, hr, hf, hlead, rfl, htime⟩, rfl⟩
      · exact .inr (mem_plan_deletes.mpr ⟨r, hr, hf, rfl, hlead⟩)
  have hlength := hperm.length_eq
  rwa [List.length_append, List.length_map, List.length_map] at hlength

theorem length_trimmed :
    (t.trimmed events).rows.length + (t.plan events).deletes.length = t.rows.length := by
  have hraised : (t.raised events).rows.map StoredEvent.id = t.rows.map StoredEvent.id :=
    MemoryStore.setTimestamps_ids _ _
  have hlength := congrArg List.length hraised
  rw [List.length_map, List.length_map] at hlength
  have hgone : ((t.raised events).rows.filter fun r => r.id ∈ (t.plan events).deletes).length =
      (t.plan events).deletes.length := by
    rw [← deletes_perm.length_eq, ← hraised, List.filter_map, List.length_map]
    rfl
  have hsplit := List.length_eq_length_filter_add (l := (t.raised events).rows)
    fun r => decide (r.id ∈ (t.plan events).deletes)
  have hleft : (t.trimmed events).rows =
      (t.raised events).rows.filter fun r => !decide (r.id ∈ (t.plan events).deletes) := by
    simp only [trimmed, rows_remove, decide_not]
  rw [hleft]
  omega

theorem length_merged : (t.merged events).rows.length + (t.plan events).deletes.length =
    t.rows.length + (t.plan events).inserts.length := by
  have hnumbered := congrArg List.length
    (map_event_numbered t.lastId (t.plan events).inserts)
  rw [List.length_map] at hnumbered
  have htrimmed : (t.trimmed events).rows.length + _ = _ := length_trimmed
  rw [rows_merged, List.length_append, hnumbered]
  omega

end EventTable

namespace EventStore.Keeps

variable {σ : Type} {S : EventStore σ} {table : σ → EventTable}
  {moves : Option StatementGroup → σ → σ → Prop}

theorem table_eq_of_ends {α : Type} {group : StatementGroup} {work : EventTable → EventTable}
    {s s' : σ} {a : α} {result : Except Fault α × σ} (h : GroupEnds table moves group work s result)
    (hresult : result = (.ok a, s')) : table s' = work (table s) := by
  subst hresult
  cases h with
  | done htable hmoves => exact htable

theorem report_eq (h : S.Keeps table moves) (hcounts : S.Counts table) {events : List Event}
    {s s' : σ} {report : MergeReport}
    (hmerge : (mergeEvents S events).run.effect s = (.ok report, s')) :
    report = (table s).reportOf events := by
  rw [effect_mergeEvents] at hmerge
  split at hmerge
  · next hempty =>
    obtain rfl := List.isEmpty_iff.mp hempty
    rw [EventTable.reportOf_nil]
    exact (Except.ok.inj (Prod.mk.inj hmerge).1).symm
  · obtain ⟨stored, s₁, hselect, hmerge⟩ := of_following_eq_ok hmerge
    obtain rfl := h.rows_of_select (eq_of_mergeCall_eq_ok hselect)
    obtain ⟨applied, s₂, happly, hreport⟩ := of_following_eq_ok hmerge
    rw [effect_apply] at happly
    obtain ⟨updated, s₃, hupdate, happly⟩ := of_following_eq_ok happly
    obtain ⟨deleted, s₄, hdelete, happly⟩ := of_following_eq_ok happly
    obtain ⟨inserted, s₅, hinsert, happly⟩ := of_following_eq_ok happly
    obtain rfl := Except.ok.inj (Prod.mk.inj happly).1
    obtain rfl := Except.ok.inj (Prod.mk.inj hreport).1
    have hkept : table s₁ = table s :=
      table_eq_of_ends (h.select _ s) hselect
    have hids : (table s₃).rows.map StoredEvent.id = (table s).rows.map StoredEvent.id := by
      rw [table_eq_of_ends (h.group_ends rfl (h.update _ s₁)) hupdate, hkept]
      exact MemoryStore.setTimestamps_ids _ _
    have hupdated : updated = ((table s).plan events).updates.length := by
      have hcount := hcounts.update hupdate
      rw [hkept] at hcount
      exact hcount.trans (congrArg List.length EventTable.filter_updates)
    have hdeleted : deleted = ((table s).plan events).deletes.length := by
      have hcount := hcounts.delete hdelete
      rw [hids] at hcount
      exact hcount.trans EventTable.deletes_perm.length_eq
    have hinserted : inserted = ((table s).plan events).inserts.length := hcounts.insert hinsert
    rw [hupdated, hdeleted, hinserted]
    rfl

end EventStore.Keeps

/-! ## Partitions -/

namespace Interference

/-- A report of a partition is that of a merge that is done. Without one the merge was stopped
somewhere, if there was anything to merge. -/
inductive ReportEnds (horizon : Int) (p : Partition) (w : DisturbedWorld) :
    Outcome × DisturbedWorld → Prop where
  | reported {outcome : Outcome} {w' : DisturbedWorld} {events : List Event}
    (hevents : prepared horizon
      (w.batches.load tripUpdateColumns tripUpdateFilters p.paths) = .ok events)
    (hreport : outcome.report? = some (w.table.reportOf events))
    (htable : w'.table = w.table.merged events) : ReportEnds horizon p w (outcome, w')
  | silent {outcome : Outcome} {w' : DisturbedWorld} (events : List Event)
    (group : StatementGroup) (hreport : outcome.report? = none)
    (htable : w'.table = w.table.before events group) : ReportEnds horizon p w (outcome, w')

theorem processPartition_reports (i : Interference) (horizon : Int) (p : Partition)
    (w : DisturbedWorld) :
    ReportEnds horizon p w ((i.collaborators.processPartition horizon p).effect w) := by
  rw [Collaborators.effect_processPartition, Collaborators.effect_loadAndMerge]
  obtain ⟨hload, hsame⟩ := i.loadOf_eq p w
  rw [hload]
  generalize (i.collaborators.loadOf p w).2 = w₁ at hsame
  cases hevents : prepared horizon
    (w.batches.load tripUpdateColumns tripUpdateFilters p.paths) with
  | error fault => exact .silent [] .select rfl hsame.table
  | ok events =>
    rw [following_ok]
    have hends := i.keeps_table.merge_ends events w₁
    rcases hmerge : (mergeEvents i.collaborators.store events).run.effect w₁
      with ⟨fault | report, w₂⟩ <;> rw [hmerge] at hends
    · cases hends with
      | stopped htable => exact .silent events _ rfl (hsame.table ▸ htable)
    · cases hends with
      | done htable =>
        obtain rfl := i.keeps_table.report_eq counts hmerge
        rw [hsame.table] at htable
        -- Whether the objects can be marked makes no difference to the table or to the report.
        have hmark := i.table_mark p.ids w₂
        dsimp only
        generalize i.collaborators.ledger.mark p.ids w₂ = marked at hmark ⊢
        obtain ⟨cause | n, w₃⟩ := marked
        · exact .reported hevents (by rw [hsame.table]; rfl) (hmark.trans htable)
        · exact .reported hevents (by rw [hsame.table]; rfl) (hmark.trans htable)

end Interference

end StopArrivals
