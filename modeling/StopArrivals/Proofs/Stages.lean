import StopArrivals.Proofs.EventTable

/-!
# The stages of a merge

A merge has three groups of statements, and a failure of a group leaves the table as the groups
before it made it. So a table passes through up to three stages: its leading rows are raised to the
latest timestamp, the rows that they lead are dropped, and newcomers are appended. Each stage is
described row by row, without the plan. In the end each fingerprint of the events has one row
(`rowsOf_merged`).
-/

namespace StopArrivals

namespace EventTable

/-- After the updates. -/
def raised (t : EventTable) (events : List Event) : EventTable :=
  t.retime (t.plan events).updates

/-- After the deletes. -/
def trimmed (t : EventTable) (events : List Event) : EventTable :=
  (t.raised events).remove (t.plan events).deletes

/-- After the inserts. -/
def merged (t : EventTable) (events : List Event) : EventTable :=
  (t.trimmed events).append (t.plan events).inserts

/-! ## Updates -/

def retimed (updates : List TimestampUpdate) (r : StoredEvent) : StoredEvent :=
  updates.foldl (fun r u => if r.id = u.id then { r with event.timestamp := u.timestamp } else r) r

theorem setTimestamps_eq_map : ∀ (updates : List TimestampUpdate) (rows : List StoredEvent),
    MemoryStore.setTimestamps updates rows = rows.map (retimed updates)
  | [], rows => (List.map_id rows).symm
  | u :: us, rows => by
      rw [MemoryStore.setTimestamps, List.foldl_cons, ← MemoryStore.setTimestamps,
        setTimestamps_eq_map us, MemoryStore.setTimestamp, List.map_map]
      rfl

theorem retimed_of_not_mem :
    ∀ {updates : List TimestampUpdate} {r : StoredEvent}, (∀ u ∈ updates, u.id ≠ r.id) →
      retimed updates r = r
  | [], _, _ => rfl
  | u :: us, r, h => by
      rw [retimed, List.foldl_cons, if_neg (h u (List.mem_cons_self ..)).symm, ← retimed]
      exact retimed_of_not_mem fun v hv => h v (List.mem_cons_of_mem _ hv)

theorem retimed_of_mem :
    ∀ {updates : List TimestampUpdate} {r : StoredEvent} {time : Int},
      (∃ u ∈ updates, u.id = r.id) → (∀ u ∈ updates, u.id = r.id → u.timestamp = time) →
      retimed updates r = { r with event.timestamp := time }
  | [], _, _, ⟨_, hu, _⟩, _ => absurd hu List.not_mem_nil
  | u :: us, r, time, _, hall => by
      have hus : ∀ v ∈ us, v.id = r.id → v.timestamp = time :=
        fun v hv => hall v (List.mem_cons_of_mem _ hv)
      rw [retimed, List.foldl_cons, ← retimed]
      by_cases hmem : ∃ v ∈ us, v.id = r.id
      · split
        · exact retimed_of_mem (r := { r with event.timestamp := u.timestamp }) hmem hus
        · exact retimed_of_mem hmem hus
      · have hid : r.id = u.id := by
          obtain ⟨v, hv, hvr⟩ := ‹∃ v ∈ u :: us, v.id = r.id›
          rcases List.mem_cons.mp hv with rfl | hv
          · exact hvr.symm
          · exact absurd ⟨v, hv, hvr⟩ hmem
        rw [if_pos hid, hall u (List.mem_cons_self ..) hid.symm]
        exact retimed_of_not_mem fun v hv hvr => hmem ⟨v, hv, hvr⟩

section

variable (t : EventTable) (events : List Event)

/-- A row after the updates: if it leads a fingerprint of the events, it has the latest timestamp
of its fingerprint. -/
def raise (r : StoredEvent) : StoredEvent :=
  if r.event.fingerprint ∈ events.map Event.fingerprint ∧ Leads t.rows r then
    { r with event.timestamp :=
        (latest? r.event.fingerprint t.rows events).getD r.event.timestamp }
  else r

@[simp] theorem raise_id (r : StoredEvent) : (t.raise events r).id = r.id := by
  rw [raise]; split <;> rfl

@[simp] theorem raise_fingerprint (r : StoredEvent) :
    (t.raise events r).event.fingerprint = r.event.fingerprint := by
  rw [raise]; split <;> rfl

/-- Only the timestamp of a row can change. -/
theorem raise_eq (r : StoredEvent) :
    t.raise events r = { r with event.timestamp := (t.raise events r).event.timestamp } := by
  rw [raise]; split <;> rfl

variable {t events}

theorem raise_of_leads {r : StoredEvent} (hf : r.event.fingerprint ∈ events.map Event.fingerprint)
    (hlead : Leads t.rows r) :
    latest? r.event.fingerprint t.rows events = some (t.raise events r).event.timestamp := by
  obtain ⟨time, htime⟩ : ∃ time, latest? r.event.fingerprint t.rows events = some time :=
    exists_latest (.inr (List.mem_map.mp hf))
  rw [raise, if_pos ⟨hf, hlead⟩, htime]
  rfl

theorem raise_of_not {r : StoredEvent}
    (h : ¬(r.event.fingerprint ∈ events.map Event.fingerprint ∧ Leads t.rows r)) :
    t.raise events r = r := if_neg h

/-- An update never sets a row back. -/
theorem le_raise {r : StoredEvent} (hr : r ∈ t.rows) :
    r.event.timestamp ≤ (t.raise events r).event.timestamp := by
  by_cases h : r.event.fingerprint ∈ events.map Event.fingerprint ∧ Leads t.rows r
  · exact (latest?_eq_some_iff.mp (raise_of_leads h.1 h.2)).2 _
      (mem_timestampsOf.mpr (.inl ⟨r, hr, rfl, rfl⟩))
  · exact Int.le_of_eq (by rw [raise_of_not h])

theorem rows_raised : (t.raised events).rows = t.rows.map (t.raise events) := by
  rw [raised, rows_retime, setTimestamps_eq_map]
  refine List.map_congr_left fun r hr => ?_
  have hfrom : ∀ u ∈ (t.plan events).updates, u.id = r.id →
      r.event.fingerprint ∈ events.map Event.fingerprint ∧ Leads t.rows r ∧
        latest? r.event.fingerprint t.rows events = some u.timestamp := by
    intro u hu hur
    obtain ⟨x, hx, hf, hlead, hid, hlatest⟩ := mem_plan_updates.mp hu
    obtain rfl := eq_of_id_eq hr hx (hur.symm.trans hid)
    exact ⟨hf, hlead, hlatest⟩
  by_cases h : r.event.fingerprint ∈ events.map Event.fingerprint ∧ Leads t.rows r
  · have hlatest := raise_of_leads h.1 h.2
    rw [raise_eq]
    refine retimed_of_mem ⟨⟨r.id, _⟩, mem_plan_updates.mpr ⟨r, hr, h.1, h.2, rfl, hlatest⟩, rfl⟩
      fun u hu hur => ?_
    exact Option.some.inj ((hfrom u hu hur).2.2.symm.trans hlatest)
  · rw [raise_of_not h]
    exact retimed_of_not_mem fun u hu hur => h ⟨(hfrom u hu hur).1, (hfrom u hu hur).2.1⟩

/-! ## Deletes -/

theorem rows_trimmed : (t.trimmed events).rows = (t.rows.filter fun r =>
    r.event.fingerprint ∈ events.map Event.fingerprint → Leads t.rows r).map (t.raise events) := by
  rw [trimmed, rows_remove, rows_raised, List.filter_map]
  congr 1
  refine List.filter_congr fun r hr => ?_
  rw [Function.comp_apply, decide_eq_decide, raise_id, mem_plan_deletes]
  constructor
  · intro h hf
    by_contra hlead
    exact h ⟨r, hr, hf, rfl, hlead⟩
  · rintro h ⟨x, hx, hf, hid, hlead⟩
    obtain rfl := eq_of_id_eq hx hr hid
    exact hlead (h hf)

theorem mem_rows_trimmed {x : StoredEvent} :
    x ∈ (t.trimmed events).rows ↔ ∃ r ∈ t.rows,
      (r.event.fingerprint ∈ events.map Event.fingerprint → Leads t.rows r) ∧
        t.raise events r = x := by
  simp only [rows_trimmed, List.mem_map, List.mem_filter, decide_eq_true_eq, and_assoc]

theorem mem_trimmed_of_leads {r : StoredEvent} (hr : r ∈ t.rows) (hlead : Leads t.rows r) :
    t.raise events r ∈ (t.trimmed events).rows :=
  mem_rows_trimmed.mpr ⟨r, hr, fun _ => hlead, rfl⟩

/-- The deletes take no fingerprint its last row. -/
theorem fingerprints_trimmed {f : Fingerprint} :
    f ∈ (t.trimmed events).rows.map (·.event.fingerprint) ↔
      f ∈ t.rows.map (·.event.fingerprint) := by
  simp only [List.mem_map]
  constructor
  · rintro ⟨x, hx, hf⟩
    obtain ⟨r, hr, -, rfl⟩ := mem_rows_trimmed.mp hx
    exact ⟨r, hr, by rwa [raise_fingerprint] at hf⟩
  · rintro ⟨r, hr, rfl⟩
    obtain ⟨x, hx, hxr, hlead⟩ := exists_leads hr
    exact ⟨_, mem_trimmed_of_leads hx hlead, by rw [raise_fingerprint, hxr]⟩

/-! ## Inserts -/

theorem mem_inserts {e : Event} :
    e ∈ (t.plan events).inserts ↔ e.fingerprint ∈ events.map Event.fingerprint ∧
      e.fingerprint ∉ t.rows.map (·.event.fingerprint) ∧
      newcomer? events e.fingerprint = some e := by
  simp only [plan_inserts, List.mem_filterMap, mem_inOrder, Option.ite_none_left_eq_some]
  constructor
  · rintro ⟨f, hf, hrows, he⟩
    obtain rfl := (newcomer?_eq_some he).1
    exact ⟨hf, hrows, he⟩
  · rintro ⟨hf, hrows, he⟩
    exact ⟨_, hf, hrows, he⟩

theorem pairwise_inserts :
    (t.plan events).inserts.Pairwise fun a b => a.fingerprint < b.fingerprint := by
  rw [plan_inserts]
  refine (pairwise_inOrder _).filterMap _ fun f g hfg a ha b hb => ?_
  rw [Option.ite_none_left_eq_some] at ha hb
  rwa [(newcomer?_eq_some ha.2).1, (newcomer?_eq_some hb.2).1]

theorem inserts_distinct :
    (t.plan events).inserts.Pairwise fun a b => a.fingerprint ≠ b.fingerprint := by
  refine pairwise_inserts.imp ?_
  rintro a b hab heq
  exact Fingerprint.lt_irrefl _ (heq ▸ hab)

/-- No row is in the way of the inserts. -/
theorem inserts_new : ∀ e ∈ (t.plan events).inserts,
    e.fingerprint ∉ (t.trimmed events).rows.map (·.event.fingerprint) :=
  fun _ he hmem => (mem_inserts.mp he).2.1 (fingerprints_trimmed.mp hmem)

/-- Which newcomers there are depends on the fingerprints of the rows only. -/
theorem inserts_congr {u : EventTable} (h : ∀ f, f ∈ t.rows.map (·.event.fingerprint) ↔
    f ∈ u.rows.map (·.event.fingerprint)) :
    (t.plan events).inserts = (u.plan events).inserts := by
  simp only [plan_inserts, h]

theorem map_event_numbered (last : Int) : ∀ es : List Event,
    (MemoryStore.numbered last es).map (·.event) = es
  | [] => rfl
  | e :: es => by rw [MemoryStore.numbered, List.map_cons, map_event_numbered (last + 1) es]

theorem nodup_ids_numbered (last : Int) (es : List Event) :
    ((MemoryStore.numbered last es).map (·.id)).Nodup :=
  List.nodup_iff_pairwise_ne.mpr (List.pairwise_map.mpr
    ((MemoryStore.numbered_ascending last es).imp Int.ne_of_lt))

theorem rows_merged : (t.merged events).rows =
    (t.trimmed events).rows ++ MemoryStore.numbered t.lastId (t.plan events).inserts := rfl

theorem mem_rows_merged {x : StoredEvent} : x ∈ (t.merged events).rows ↔
    x ∈ (t.trimmed events).rows ∨
      x ∈ MemoryStore.numbered t.lastId (t.plan events).inserts :=
  List.mem_append

theorem event_mem_inserts {x : StoredEvent}
    (h : x ∈ MemoryStore.numbered t.lastId (t.plan events).inserts) :
    x.event ∈ (t.plan events).inserts := by
  have := List.mem_map_of_mem (f := fun r : StoredEvent => r.event) h
  rwa [map_event_numbered] at this

/-! ## One row for each fingerprint -/

/-- The row that leads a fingerprint is what is left of it. -/
theorem rowsOf_merged_of_leads {x : StoredEvent}
    (hf : x.event.fingerprint ∈ events.map Event.fingerprint) (hx : x ∈ t.rows)
    (hlead : Leads t.rows x) :
    rowsOf x.event.fingerprint (t.merged events).rows = [t.raise events x] := by
  have hmem : t.raise events x ∈ (t.merged events).rows :=
    mem_rows_merged.mpr (.inl (mem_trimmed_of_leads hx hlead))
  rw [← raise_fingerprint t events x]
  refine rowsOf_eq_singleton hmem fun y hy hyx => ?_
  rw [raise_fingerprint] at hyx
  rcases mem_rows_merged.mp hy with hy | hy
  · obtain ⟨z, hz, hzlead, rfl⟩ := mem_rows_trimmed.mp hy
    rw [raise_fingerprint] at hyx
    rw [eq_of_leads hz hx hyx (hzlead (hyx ▸ hf)) hlead]
  · exact absurd (hyx ▸ List.mem_map_of_mem hx) (mem_inserts.mp (event_mem_inserts hy)).2.1

/-- A newcomer is the only row of its fingerprint. -/
theorem rowsOf_merged_of_newcomer {e : Event} (he : e ∈ (t.plan events).inserts) :
    ∃ r, rowsOf e.fingerprint (t.merged events).rows = [r] ∧ r.event = e := by
  have hnumbered := he
  rw [← map_event_numbered t.lastId (t.plan events).inserts] at hnumbered
  obtain ⟨r, hr, rfl⟩ := List.mem_map.mp hnumbered
  refine ⟨r, rowsOf_eq_singleton (mem_rows_merged.mpr (.inr hr)) fun x hx hxr => ?_, rfl⟩
  rcases mem_rows_merged.mp hx with hx | hx
  · have hold := fingerprints_trimmed.mp (List.mem_map.mpr ⟨x, hx, hxr⟩)
    exact absurd hold (mem_inserts.mp he).2.1
  · have hxe := (mem_inserts.mp (event_mem_inserts hx)).2.2
    rw [hxr, (mem_inserts.mp he).2.2] at hxe
    have hnodup : ((MemoryStore.numbered t.lastId (t.plan events).inserts).map
        (·.event)).Nodup := by
      rw [map_event_numbered]
      refine List.nodup_iff_pairwise_ne.mpr (pairwise_inserts.imp ?_)
      rintro a b hab rfl
      exact Fingerprint.lt_irrefl _ hab
    exact List.inj_on_of_nodup_map hnodup hx hr (Option.some.inj hxe).symm

/-- After a merge each fingerprint of the events has one row, with the latest timestamp there was
for it. If it had rows before, that row is the one that led them. -/
theorem rowsOf_merged {f : Fingerprint} (hf : f ∈ events.map Event.fingerprint) :
    ∃ r, rowsOf f (t.merged events).rows = [r] ∧
      latest? f t.rows events = some r.event.timestamp ∧
      ((∃ x ∈ t.rows, x.event.fingerprint = f ∧ Leads t.rows x ∧ t.raise events x = r) ∨
        f ∉ t.rows.map (·.event.fingerprint) ∧ newcomer? events f = some r.event) := by
  by_cases hrows : f ∈ t.rows.map (·.event.fingerprint)
  · obtain ⟨y, hy, hyf⟩ := List.mem_map.mp hrows
    obtain ⟨x, hx, hxy, hlead⟩ := exists_leads hy
    obtain rfl : x.event.fingerprint = f := hxy.trans hyf
    exact ⟨t.raise events x, rowsOf_merged_of_leads hf hx hlead, raise_of_leads hf hlead,
      .inl ⟨x, hx, rfl, hlead, rfl⟩⟩
  · obtain ⟨e, he⟩ := exists_newcomer (List.mem_map.mp hf)
    obtain ⟨rfl, hlatest, -⟩ := newcomer?_eq_some he
    obtain ⟨r, hr, rfl⟩ := rowsOf_merged_of_newcomer (mem_inserts.mpr ⟨hf, hrows, he⟩)
    refine ⟨r, hr, ?_, .inr ⟨hrows, he⟩⟩
    rwa [latest?, timestampsOf, rowsOf_eq_nil_iff.mpr hrows]

end

end EventTable

end StopArrivals
