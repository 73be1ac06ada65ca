import StopArrivals.Proofs.Lineage
import StopArrivals.Proofs.Reconciliation
import StopArrivals.Proofs.Retry

/-!
# What a merge leaves

A merge into a store in memory, seen from the fingerprints: rows of other fingerprints stay as they
are, of the rows of an event's fingerprint the one with the lowest id goes on with the latest
timestamp, and a fingerprint without a row gets one (`EventTable.MergesTo`). One table only is so
(`EventTable.MergesTo.eq`), and every merge without a failure leaves it, also where the store had
several rows of one fingerprint (`MemoryStore.merge_effect`).
-/

namespace StopArrivals

namespace EventTable

/-! ## Tables before and after -/

/-- The rows of a later table with a fingerprint that an earlier one does not have. -/
def arrivals (t t' : EventTable) : List StoredEvent :=
  t'.rows.filter fun r => r.event.fingerprint ∉ t.rows.map (·.event.fingerprint)

/-- Table `t'` is what a merge of some events makes of table `t`. -/
structure MergesTo (t : EventTable) (events : List Event) (t' : EventTable) : Prop where
  other : ∀ f ∉ events.map Event.fingerprint, rowsOf f t'.rows = rowsOf f t.rows
  /-- The row with the lowest id goes on, and it is the only one. -/
  known : ∀ f ∈ events.map Event.fingerprint, f ∈ t.rows.map (·.event.fingerprint) →
    ∃ r ∈ rowsOf f t.rows, lowestId? f t.rows = some r.id ∧
      ∃ time, latest? f t.rows events = some time ∧
        rowsOf f t'.rows = [{ r with event.timestamp := time }]
  unknown : ∀ f ∈ events.map Event.fingerprint, f ∉ t.rows.map (·.event.fingerprint) →
    ∃ r, rowsOf f t'.rows = [r] ∧ IsInsert t.rows events f r.event
  ascending : (t.arrivals t').Pairwise fun a b => a.event.fingerprint < b.event.fingerprint
  /-- Their ids follow the last one that was given out. -/
  numbered : t.arrivals t' = MemoryStore.numbered t.lastId ((t.arrivals t').map (·.event))
  lastId : t'.lastId = t.lastId + (t.arrivals t').length

section

variable {t u v : EventTable} {events : List Event}

theorem rowsOf_arrivals {f : Fingerprint} (hf : f ∉ t.rows.map (·.event.fingerprint)) :
    rowsOf f (t.arrivals u) = rowsOf f u.rows :=
  rowsOf_filter fun _ _ hr => decide_eq_true (hr ▸ hf)

/-- A table is what it has of each fingerprint. -/
theorem ext_rowsOf (hrows : ∀ f, rowsOf f t.rows = rowsOf f u.rows) (hlast : t.lastId = u.lastId) :
    t = u := by
  refine EventTable.ext ?_ hlast
  refine eq_of_pairwise_lt (fun a b : StoredEvent => a.id < b.id) (fun _ => Int.lt_irrefl _)
    (fun _ _ _ => Int.lt_trans) t.ascending u.ascending fun r => ?_
  have hmem : r ∈ rowsOf r.event.fingerprint t.rows ↔ r ∈ rowsOf r.event.fingerprint u.rows := by
    rw [hrows]
  simpa using hmem

/-! ## One table only -/

namespace MergesTo

theorem fingerprint_mem_of_mem_arrivals (h : t.MergesTo events u) {r : StoredEvent}
    (hr : r ∈ t.arrivals u) : r.event.fingerprint ∈ events.map Event.fingerprint := by
  obtain ⟨hr, hnew⟩ := List.mem_filter.mp hr
  by_contra hf
  have hmem : r ∈ rowsOf r.event.fingerprint t.rows := h.other _ hf ▸ mem_rowsOf.mpr ⟨hr, rfl⟩
  exact of_decide_eq_true hnew (List.mem_map_of_mem (mem_rowsOf.mp hmem).1)

theorem oneForEach (h : t.MergesTo events u) :
    OneForEach (InsertDue t.rows events) (IsInsert t.rows events)
      ((t.arrivals u).map (·.event)) := by
  refine ⟨(t.arrivals u).map (·.event.fingerprint), List.pairwise_map.mpr h.ascending,
    fun f => ?_, ?_⟩
  · rw [insertDue_iff]
    constructor
    · intro hf
      obtain ⟨r, hr, rfl⟩ := List.mem_map.mp hf
      exact ⟨of_decide_eq_true (List.mem_filter.mp hr).2, h.fingerprint_mem_of_mem_arrivals hr⟩
    · rintro ⟨hnew, hf⟩
      obtain ⟨r, hrows, -⟩ := h.unknown f hf hnew
      rw [← rowsOf_arrivals hnew] at hrows
      obtain ⟨hr, rfl⟩ := mem_of_rowsOf_eq hrows
      exact List.mem_map_of_mem hr
  · refine List.forall₂_map_left_iff.mpr (List.forall₂_map_right_iff.mpr ?_)
    refine List.forall₂_same.mpr fun r hr => ?_
    have hnew : r.event.fingerprint ∉ t.rows.map (·.event.fingerprint) :=
      of_decide_eq_true (List.mem_filter.mp hr).2
    obtain ⟨x, hrows, hinsert⟩ := h.unknown _ (h.fingerprint_mem_of_mem_arrivals hr) hnew
    exact eq_of_rowsOf_eq hrows (List.mem_filter.mp hr).1 rfl ▸ hinsert

theorem arrivals_eq (hu : t.MergesTo events u) (hv : t.MergesTo events v) :
    t.arrivals u = t.arrivals v := by
  rw [hu.numbered, hv.numbered, hu.oneForEach.eq isInsert_unique hv.oneForEach]

theorem eq (hu : t.MergesTo events u) (hv : t.MergesTo events v) : u = v := by
  refine ext_rowsOf (fun f => ?_) (by rw [hu.lastId, hv.lastId, hu.arrivals_eq hv])
  by_cases hf : f ∈ events.map Event.fingerprint
  · by_cases hrows : f ∈ t.rows.map (·.event.fingerprint)
    · obtain ⟨r, hr, hlow, time, htime, hleft⟩ := hu.known f hf hrows
      obtain ⟨x, hx, hlow', time', htime', hleft'⟩ := hv.known f hf hrows
      obtain rfl : r = x := eq_of_id_eq (mem_rowsOf.mp hr).1 (mem_rowsOf.mp hx).1
        (Option.some.inj (hlow.symm.trans hlow'))
      rw [hleft, hleft', Option.some.inj (htime.symm.trans htime')]
    · rw [← rowsOf_arrivals hrows, hu.arrivals_eq hv, rowsOf_arrivals hrows]
  · rw [hu.other f hf, hv.other f hf]

end MergesTo

/-! ## The table after a merge -/

theorem arrivals_merged :
    t.arrivals (t.merged events) = MemoryStore.numbered t.lastId (t.plan events).inserts := by
  have hold : t.arrivals (t.trimmed events) = [] := by
    refine List.filter_eq_nil_iff.mpr fun r hr => ?_
    simpa using fingerprints_trimmed.mp (List.mem_map_of_mem hr)
  have hnew : ∀ r ∈ MemoryStore.numbered t.lastId (t.plan events).inserts,
      decide (r.event.fingerprint ∉ t.rows.map (·.event.fingerprint)) = true := by
    intro r hr
    exact decide_eq_true (mem_inserts.mp (event_mem_inserts hr)).2.1
  rw [arrivals, rows_merged, List.filter_append, List.filter_eq_self.mpr hnew]
  exact congrArg (· ++ _) hold

theorem mergesTo_merged : t.MergesTo events (t.merged events) where
  other f hf := Stage.merged.rowsOf_eq hf
  known f hf hrows := by
    obtain ⟨r, hleft, hlatest, ⟨x, hx, hxf, hlead, rfl⟩ | ⟨hnew, -⟩⟩ := rowsOf_merged (t := t) hf
    · refine ⟨x, mem_rowsOf.mpr ⟨hx, hxf⟩, hxf ▸ (leads_iff_lowestId? hx).mp hlead, _, hlatest, ?_⟩
      rw [hleft, ← raise_eq]
    · exact absurd hrows hnew
  unknown f hf hrows := by
    obtain ⟨r, hleft, hlatest, ⟨x, hx, rfl, -⟩ | ⟨-, hnew⟩⟩ := rowsOf_merged (t := t) hf
    · exact absurd (List.mem_map_of_mem hx) hrows
    · exact ⟨r, hleft, (newcomer?_eq_some hnew).1, hlatest, isFirst_of_newcomer? hnew⟩
  ascending := by
    rw [arrivals_merged, ← List.pairwise_map (f := fun r : StoredEvent => r.event)
      (R := fun a b => a.fingerprint < b.fingerprint), map_event_numbered]
    exact pairwise_inserts
  numbered := by rw [arrivals_merged, map_event_numbered]
  lastId := by
    have hlength : (MemoryStore.numbered t.lastId (t.plan events).inserts).length =
        (t.plan events).inserts.length := by
      rw [← List.length_map (·.event), map_event_numbered]
    rw [arrivals_merged, hlength]
    rfl

end

end EventTable

namespace MemoryStore

/-- Where no failure was set, a merge succeeds and leaves the one table that it can leave, seen from
the fingerprints. The insert at its end finds no fingerprint that would be there twice. -/
theorem merge_effect {s : MemoryStore} (hs : s.failNext = none) (events : List Event) :
    ∃ report s', (mergeEvents store events).run.effect s = (.ok report, s') ∧
      s'.failNext = none ∧ s.table.MergesTo events s'.table ∧
      (∀ t, s.table.MergesTo events t → t = s'.table) ∧
      firstRepeated ((s.table.trimmed events).rows.map (·.event.fingerprint))
        (s.table.plan events).inserts = none := by
  obtain ⟨report, s', hmerge, htable, hfail⟩ := merge_succeeds hs events
  have hmerges : s.table.MergesTo events s'.table := htable ▸ EventTable.mergesTo_merged
  refine ⟨report, s', hmerge, hfail, hmerges, fun t ht => ht.eq hmerges, ?_⟩
  exact firstRepeated_eq_none_iff.mpr ⟨EventTable.inserts_new, EventTable.inserts_distinct⟩

/-- Two rows of one fingerprint, and two that no event has. -/
def crowdedStore : MemoryStore :=
  ofEvents [sampleEvent 7 10, sampleEvent 4 5, sampleEvent 7 30, sampleEvent 3 50]

/-- Two events of a fingerprint that is not stored yet, and they are not in order. -/
def mixedEvents : List Event :=
  [sampleEvent 9 25, sampleEvent 7 20, sampleEvent 9 20, sampleEvent 2 1]

theorem merge_effect_of_mixed_events :
    crowdedStore.failNext = none ∧
      ∃ report s', (mergeEvents store mixedEvents).run.effect crowdedStore = (.ok report, s') ∧
        crowdedStore.table.MergesTo mixedEvents s'.table ∧
        s'.rows = [⟨1, sampleEvent 7 30⟩, ⟨2, sampleEvent 4 5⟩, ⟨4, sampleEvent 3 50⟩,
          ⟨5, sampleEvent 2 1⟩, ⟨6, sampleEvent 9 25⟩] := by
  have hrows : ((mergeEvents store mixedEvents).run.effect crowdedStore).2.rows =
      [⟨1, sampleEvent 7 30⟩, ⟨2, sampleEvent 4 5⟩, ⟨4, sampleEvent 3 50⟩,
        ⟨5, sampleEvent 2 1⟩, ⟨6, sampleEvent 9 25⟩] := by
    cbv
  obtain ⟨report, s', hmerge, -, hmerges, -⟩ := merge_effect (s := crowdedStore) rfl mixedEvents
  rw [hmerge] at hrows
  exact ⟨rfl, report, s', hmerge, hmerges, hrows⟩

end MemoryStore

end StopArrivals
