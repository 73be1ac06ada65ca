import StopArrivals.Proofs.Plan
import StopArrivals.Store.Memory

/-!
# The event table during a merge

What a store in memory holds, without the failure that may be set for a later call. A merge takes a
table through three stages, one for each group of statements. Here are the statements and the plan
that is made for a table.
-/

namespace StopArrivals

@[ext]
structure EventTable where
  rows : List StoredEvent
  lastId : Int
  ascending : rows.Pairwise (fun a b => a.id < b.id)
  id_le_lastId : ∀ r ∈ rows, r.id ≤ lastId

def MemoryStore.table (s : MemoryStore) : EventTable :=
  ⟨s.rows, s.lastId, s.ascending, s.id_le_lastId⟩

namespace EventTable

/-! ## Statements on a table -/

def retime (updates : List TimestampUpdate) (t : EventTable) : EventTable where
  rows := MemoryStore.setTimestamps updates t.rows
  lastId := t.lastId
  ascending := by
    rw [MemoryStore.ascending_iff_ids, MemoryStore.setTimestamps_ids]
    exact MemoryStore.ascending_iff_ids.mp t.ascending
  id_le_lastId := by
    rw [MemoryStore.ids_le_iff, MemoryStore.setTimestamps_ids]
    exact MemoryStore.ids_le_iff.mp t.id_le_lastId

def remove (ids : List Int) (t : EventTable) : EventTable where
  rows := t.rows.filter fun r => r.id ∉ ids
  lastId := t.lastId
  ascending := t.ascending.filter _
  id_le_lastId := fun r hr => t.id_le_lastId r (List.mem_filter.mp hr).1

def append (events : List Event) (t : EventTable) : EventTable where
  rows := t.rows ++ MemoryStore.numbered t.lastId events
  lastId := t.lastId + events.length
  ascending := List.pairwise_append.mpr
    ⟨t.ascending, MemoryStore.numbered_ascending _ _, fun a ha b hb =>
      Int.lt_of_le_of_lt (t.id_le_lastId a ha) (MemoryStore.id_of_mem_numbered hb).1⟩
  id_le_lastId := fun r hr => by
    rcases List.mem_append.mp hr with h | h
    · have := t.id_le_lastId r h
      omega
    · exact (MemoryStore.id_of_mem_numbered h).2

theorem rows_retime (updates : List TimestampUpdate) (t : EventTable) :
    (t.retime updates).rows = MemoryStore.setTimestamps updates t.rows := rfl

theorem rows_remove (ids : List Int) (t : EventTable) :
    (t.remove ids).rows = t.rows.filter fun r => r.id ∉ ids := rfl

theorem remove_nil (t : EventTable) : t.remove [] = t := by
  refine EventTable.ext ?_ rfl
  simp [remove]

theorem append_nil (t : EventTable) : t.append [] = t := by
  refine EventTable.ext ?_ ?_
  · simp [append, MemoryStore.numbered]
  · simp [append]

theorem nodup_ids (t : EventTable) : (t.rows.map (·.id)).Nodup := by
  refine List.nodup_iff_pairwise_ne.mpr (List.pairwise_map.mpr (t.ascending.imp ?_))
  exact fun h => Int.ne_of_lt h

/-- A row is known by its id. -/
theorem eq_of_id_eq {t : EventTable} {r x : StoredEvent} (hr : r ∈ t.rows) (hx : x ∈ t.rows)
    (h : r.id = x.id) : r = x :=
  List.inj_on_of_nodup_map t.nodup_ids hr hx h

theorem eq_of_leads {t : EventTable} {r x : StoredEvent} (hr : r ∈ t.rows) (hx : x ∈ t.rows)
    (hf : r.event.fingerprint = x.event.fingerprint) (h : Leads t.rows r) (h' : Leads t.rows x) :
    r = x :=
  eq_of_id_eq hr hx (h.id_eq h' hr hx hf)

theorem rowsOf_eq_singleton {t : EventTable} {r : StoredEvent} (hr : r ∈ t.rows)
    (honly : ∀ x ∈ t.rows, x.event.fingerprint = r.event.fingerprint → x = r) :
    rowsOf r.event.fingerprint t.rows = [r] := by
  have hnodup : (rowsOf r.event.fingerprint t.rows).Nodup :=
    (List.Nodup.of_map _ t.nodup_ids).filter _
  refine List.perm_singleton.mp ((List.perm_ext_iff_of_nodup hnodup
    (List.nodup_singleton r)).mpr fun x => ?_)
  rw [mem_rowsOf, List.mem_singleton]
  constructor
  · exact fun h => honly x h.1 h.2
  · rintro rfl
    exact ⟨hr, rfl⟩

/-! ## The plan for a table -/

/-- The rows that a merge of the events meets. -/
def selected (t : EventTable) (events : List Event) : List StoredEvent :=
  t.rows.filter fun r => r.event.fingerprint ∈ events.map Event.fingerprint

def plan (t : EventTable) (events : List Event) : MergePlan := planMerge (t.selected events) events

section

variable {t : EventTable} {events : List Event}

theorem mem_selected {r : StoredEvent} :
    r ∈ t.selected events ↔ r ∈ t.rows ∧ r.event.fingerprint ∈ events.map Event.fingerprint := by
  simp [selected]

theorem rowsOf_selected {f : Fingerprint} (hf : f ∈ events.map Event.fingerprint) :
    rowsOf f (t.selected events) = rowsOf f t.rows :=
  rowsOf_filter fun _ _ hr => decide_eq_true (hr ▸ hf)

theorem latest?_selected {f : Fingerprint} (hf : f ∈ events.map Event.fingerprint) :
    latest? f (t.selected events) events = latest? f t.rows events := by
  rw [latest?, latest?, timestampsOf, timestampsOf, rowsOf_selected hf]

theorem leads_selected {r : StoredEvent}
    (hr : r.event.fingerprint ∈ events.map Event.fingerprint) :
    Leads (t.selected events) r ↔ Leads t.rows r := by
  refine forall_congr' fun x => ?_
  rw [mem_selected]
  exact ⟨fun h hx hxr => h ⟨hx, hxr ▸ hr⟩ hxr, fun h hx hxr => h hx.1 hxr⟩

theorem mem_plan_updates {u : TimestampUpdate} :
    u ∈ (t.plan events).updates ↔
      ∃ r ∈ t.rows, r.event.fingerprint ∈ events.map Event.fingerprint ∧ Leads t.rows r ∧
        u.id = r.id ∧ latest? r.event.fingerprint t.rows events = some u.timestamp := by
  rw [plan, mem_updates_iff]
  constructor
  · rintro ⟨r, hr, hlead, hid, hlatest, -⟩
    obtain ⟨hr, hf⟩ := mem_selected.mp hr
    exact ⟨r, hr, hf, (leads_selected hf).mp hlead, hid, latest?_selected hf ▸ hlatest⟩
  · rintro ⟨r, hr, hf, hlead, hid, hlatest⟩
    refine ⟨r, mem_selected.mpr ⟨hr, hf⟩, (leads_selected hf).mpr hlead, hid,
      (latest?_selected hf).trans hlatest, ?_⟩
    -- The row itself and an event with its fingerprint make two entries.
    obtain ⟨e, he, hef⟩ := List.mem_map.mp hf
    have hrow : 0 < (rowsOf r.event.fingerprint (t.selected events)).length :=
      List.length_pos_of_mem (mem_rowsOf.mpr ⟨mem_selected.mpr ⟨hr, hf⟩, rfl⟩)
    have hevent : 0 < (eventsOf r.event.fingerprint events).length :=
      List.length_pos_of_mem (mem_eventsOf.mpr ⟨he, hef⟩)
    omega

theorem mem_plan_deletes {i : Int} :
    i ∈ (t.plan events).deletes ↔
      ∃ r ∈ t.rows, r.event.fingerprint ∈ events.map Event.fingerprint ∧ r.id = i ∧
        ¬Leads t.rows r := by
  have hids : ((t.selected events).map (·.id)).Nodup :=
    t.nodup_ids.sublist (List.filter_sublist.map _)
  rw [plan, mem_deletes_iff hids]
  refine exists_congr fun r => ?_
  rw [mem_selected, and_assoc]
  refine and_congr_right fun _ => and_congr_right fun hf => ?_
  rw [leads_selected hf]

theorem plan_inserts :
    (t.plan events).inserts = (inOrder (events.map Event.fingerprint)).filterMap fun f =>
      if f ∈ t.rows.map (·.event.fingerprint) then none else newcomer? events f := by
  have hkeys : mergedFingerprints (t.selected events) events =
      inOrder (events.map Event.fingerprint) := by
    refine eq_inOrder (pairwise_inOrder _) fun f => ?_
    rw [mem_mergedFingerprints, List.mem_map]
    refine or_iff_right_of_imp ?_
    rintro ⟨r, hr, rfl⟩
    exact List.mem_map.mp (mem_selected.mp hr).2
  rw [plan, inserts_eq, hkeys]
  refine List.filterMap_congr fun f hf => ?_
  have hmem : f ∈ (t.selected events).map (·.event.fingerprint) ↔
      f ∈ t.rows.map (·.event.fingerprint) := by
    simp only [List.mem_map, mem_selected]
    refine ⟨fun ⟨r, hr, hrf⟩ => ⟨r, hr.1, hrf⟩, fun ⟨r, hr, hrf⟩ => ⟨r, ⟨hr, ?_⟩, hrf⟩⟩
    exact List.mem_map.mp (hrf ▸ mem_inOrder.mp hf)
  simp only [hmem]

end

end EventTable

end StopArrivals
