import StopArrivals.Proofs.Stages

/-!
# Settled tables

A table is settled for some events when each of their fingerprints that it holds has one row, no
event later than it. Merging the events again changes nothing about such rows. A merge leaves a
settled table, and every stage on the way settles in the table that the merge was to leave: the
latest timestamp absorbs itself, the leading row goes on leading, and a row that is there needs no
newcomer (`merged_raised`, `merged_trimmed`, `merged_merged`).
-/

namespace StopArrivals

namespace EventTable

/-- The rows of the events' fingerprints lead, and no event is later than they are. -/
def Settled (t : EventTable) (events : List Event) : Prop :=
  ∀ r ∈ t.rows, r.event.fingerprint ∈ events.map Event.fingerprint →
    Leads t.rows r ∧ latest? r.event.fingerprint t.rows events = some r.event.timestamp

section

variable {t : EventTable} {events : List Event}

/-! ## Nothing to do -/

theorem Settled.raise_eq_self (h : t.Settled events) {r : StoredEvent} (hr : r ∈ t.rows) :
    t.raise events r = r := by
  by_cases hcase : r.event.fingerprint ∈ events.map Event.fingerprint ∧ Leads t.rows r
  · have hlatest := raise_of_leads hcase.1 hcase.2
    rw [(h r hr hcase.1).2] at hlatest
    rw [raise_eq, ← Option.some.inj hlatest]
  · exact raise_of_not hcase

theorem Settled.trimmed_eq_self (h : t.Settled events) : t.trimmed events = t := by
  refine EventTable.ext ?_ rfl
  rw [rows_trimmed, List.filter_eq_self.mpr fun r hr => decide_eq_true fun hf => (h r hr hf).1,
    List.map_congr_left fun r hr => h.raise_eq_self hr, List.map_id']

theorem Settled.merged_eq_self (h : t.Settled events)
    (hall : ∀ f ∈ events.map Event.fingerprint, f ∈ t.rows.map (·.event.fingerprint)) :
    t.merged events = t := by
  have hnone : (t.plan events).inserts = [] := List.eq_nil_iff_forall_not_mem.mpr fun e he =>
    (mem_inserts.mp he).2.1 (hall _ (mem_inserts.mp he).1)
  rw [merged, h.trimmed_eq_self, hnone, append_nil]

/-! ## After the updates -/

theorem leads_raised {r : StoredEvent} :
    Leads (t.raised events).rows (t.raise events r) ↔ Leads t.rows r := by
  rw [Leads, Leads, rows_raised, List.forall_mem_map]
  simp only [raise_id, raise_fingerprint]

theorem latest?_raised {f : Fingerprint} (hf : f ∈ events.map Event.fingerprint) :
    latest? f (t.raised events).rows events = latest? f t.rows events := by
  obtain ⟨time, htime⟩ : ∃ time, latest? f t.rows events = some time :=
    exists_latest (.inr (List.mem_map.mp hf))
  obtain ⟨hmem, hle⟩ := latest?_eq_some_iff.mp htime
  have hraise : ∀ r ∈ t.rows, r.event.fingerprint = f → Leads t.rows r →
      (t.raise events r).event.timestamp = time := fun r hr hrf hlead =>
    Option.some.inj ((raise_of_leads (hrf ▸ hf) hlead).symm.trans (hrf ▸ htime))
  rw [htime, latest?_eq_some_iff, rows_raised]
  constructor
  · rcases mem_timestampsOf.mp hmem with ⟨r, hr, hrf, hrt⟩ | he
    · refine mem_timestampsOf.mpr (.inl ⟨_, List.mem_map_of_mem hr, by simp [hrf], ?_⟩)
      by_cases hlead : Leads t.rows r
      · exact hraise r hr hrf hlead
      · rwa [raise_of_not fun h => hlead h.2]
    · exact mem_timestampsOf.mpr (.inr he)
  · intro x hx
    rcases mem_timestampsOf.mp hx with ⟨y, hy, hyf, rfl⟩ | he
    · obtain ⟨r, hr, rfl⟩ := List.mem_map.mp hy
      rw [raise_fingerprint] at hyf
      by_cases hlead : Leads t.rows r
      · exact Int.le_of_eq (hraise r hr hyf hlead)
      · rw [raise_of_not fun h => hlead h.2]
        exact hle _ (mem_timestampsOf.mpr (.inl ⟨r, hr, hyf, rfl⟩))
    · exact hle _ (mem_timestampsOf.mpr (.inr he))

theorem raise_raised (r : StoredEvent) :
    (t.raised events).raise events (t.raise events r) = t.raise events r := by
  by_cases h : r.event.fingerprint ∈ events.map Event.fingerprint ∧ Leads t.rows r
  · have hf : (t.raise events r).event.fingerprint ∈ events.map Event.fingerprint :=
      (raise_fingerprint t events r).symm ▸ h.1
    have hlatest := raise_of_leads hf (leads_raised.mpr h.2)
    rw [latest?_raised hf, raise_fingerprint, raise_of_leads h.1 h.2] at hlatest
    rw [raise_eq, ← Option.some.inj hlatest]
  · refine raise_of_not fun h' => h ⟨?_, leads_raised.mp h'.2⟩
    exact raise_fingerprint t events r ▸ h'.1

theorem trimmed_raised : (t.raised events).trimmed events = t.trimmed events := by
  refine EventTable.ext ?_ rfl
  rw [rows_trimmed, rows_trimmed, rows_raised, List.filter_map, List.map_map]
  have hfilter : ∀ r ∈ t.rows,
      decide ((t.raise events r).event.fingerprint ∈ events.map Event.fingerprint →
        Leads (t.rows.map (t.raise events)) (t.raise events r)) =
      decide (r.event.fingerprint ∈ events.map Event.fingerprint → Leads t.rows r) := by
    intro r _
    rw [← rows_raised, decide_eq_decide, raise_fingerprint, leads_raised]
  rw [← List.filter_congr hfilter]
  exact List.map_congr_left fun r _ => raise_raised r

theorem merged_raised : (t.raised events).merged events = t.merged events := by
  rw [merged, trimmed_raised, inserts_congr (u := t) fun f => ?_, merged]
  simp only [rows_raised, List.map_map, Function.comp_def, raise_fingerprint]

/-! ## After the deletes -/

theorem settled_trimmed : (t.trimmed events).Settled events := by
  intro x hx hf
  obtain ⟨r, hr, hlead, rfl⟩ := mem_rows_trimmed.mp hx
  rw [raise_fingerprint] at hf
  have hlatest := raise_of_leads hf (hlead hf)
  refine ⟨fun y hy hyr => ?_, latest?_eq_some_iff.mpr ⟨?_, fun time htime => ?_⟩⟩
  · obtain ⟨z, hz, -, rfl⟩ := mem_rows_trimmed.mp hy
    rw [raise_id, raise_id]
    rw [raise_fingerprint, raise_fingerprint] at hyr
    exact hlead hf z hz hyr
  · exact mem_timestampsOf.mpr (.inl ⟨_, hx, rfl, rfl⟩)
  · rcases mem_timestampsOf.mp htime with ⟨y, hy, hyr, rfl⟩ | ⟨e, he, hef, rfl⟩
    · obtain ⟨z, hz, hzlead, rfl⟩ := mem_rows_trimmed.mp hy
      rw [raise_fingerprint, raise_fingerprint] at hyr
      have hzr : z = r := eq_of_leads hz hr hyr (hzlead (hyr ▸ hf)) (hlead hf)
      exact Int.le_of_eq (by rw [hzr])
    · rw [raise_fingerprint] at hef
      exact (latest?_eq_some_iff.mp hlatest).2 _ (mem_timestampsOf.mpr (.inr ⟨e, he, hef, rfl⟩))

theorem merged_trimmed : (t.trimmed events).merged events = t.merged events := by
  rw [merged, settled_trimmed.trimmed_eq_self, inserts_congr fun f => fingerprints_trimmed, merged]

/-! ## After the inserts -/

theorem settled_merged : (t.merged events).Settled events := by
  intro x hx hf
  obtain ⟨r, hrows, hlatest, -⟩ := rowsOf_merged (t := t) hf
  obtain rfl := eq_of_rowsOf_eq hrows hx rfl
  refine ⟨fun y hy hyx => eq_of_rowsOf_eq hrows hy hyx ▸ Int.le_refl _,
    latest?_eq_some_iff.mpr ⟨?_, ?_⟩⟩
  · exact mem_timestampsOf.mpr (.inl ⟨x, hx, rfl, rfl⟩)
  · intro time htime
    rcases mem_timestampsOf.mp htime with ⟨y, hy, hyx, rfl⟩ | he
    · exact Int.le_of_eq (by rw [eq_of_rowsOf_eq hrows hy hyx])
    · exact (latest?_eq_some_iff.mp hlatest).2 _ (mem_timestampsOf.mpr (.inr he))

theorem merged_merged : (t.merged events).merged events = t.merged events := by
  refine settled_merged.merged_eq_self fun f hf => ?_
  obtain ⟨r, hrows, -⟩ := rowsOf_merged (t := t) hf
  exact List.mem_map.mpr ⟨r, mem_of_rowsOf_eq hrows⟩

end

end EventTable

end StopArrivals
