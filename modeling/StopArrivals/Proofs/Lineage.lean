import Mathlib.Order.Bounds.Defs
import StopArrivals.Proofs.Merging

/-!
# Where the rows of a table come from

Merges of many lists of events, done or stopped halfway, lead from one table to another. `Lineage`
says what survives all of them: each row is an old one with another timestamp or comes from an
event, each timestamp was there before or is that of an event, leading rows stay, no fingerprint is
lost or set back, and fingerprints without events are left alone. `Holds` says that an event has
arrived, which no later merge undoes.

When all events have arrived, the two together leave no choice: each fingerprint of an event has one
row, and its timestamp is the greatest that there ever was (`Lineage.exists_greatest`).
-/

namespace StopArrivals

namespace EventTable

/-! ## Stages -/

/-- The tables that a merge may leave, done or stopped. -/
inductive Stage (t : EventTable) (events : List Event) : EventTable → Prop where
  | untouched : Stage t events t
  | raised : Stage t events (t.raised events)
  | trimmed : Stage t events (t.trimmed events)
  | merged : Stage t events (t.merged events)

theorem stage_before (t : EventTable) (events : List Event) (group : StatementGroup) :
    t.Stage events (t.before events group) := by
  cases group with
  | select | update => exact .untouched
  | delete => exact .raised
  | insert => exact .trimmed

section

variable {t t' : EventTable} {events : List Event}

theorem rowsOf_map_raise (f : Fingerprint) (rows : List StoredEvent) :
    rowsOf f (rows.map (t.raise events)) = (rowsOf f rows).map (t.raise events) := by
  simp only [rowsOf, List.filter_map, Function.comp_def, raise_fingerprint]

theorem rowsOf_trimmed (f : Fingerprint) : rowsOf f (t.trimmed events).rows =
    ((rowsOf f t.rows).filter fun r =>
      r.event.fingerprint ∈ events.map Event.fingerprint → Leads t.rows r).map
        (t.raise events) := by
  rw [rows_trimmed, rowsOf_map_raise, rowsOf, List.filter_comm, ← rowsOf]

/-- A row after a stage was there before, perhaps with an earlier timestamp, or is a newcomer. -/
theorem Stage.origin (h : t.Stage events t') {x : StoredEvent} (hx : x ∈ t'.rows) :
    (∃ r ∈ t.rows, x = r ∨ x = t.raise events r) ∨
      x.event.fingerprint ∉ t.rows.map (·.event.fingerprint) ∧
        newcomer? events x.event.fingerprint = some x.event := by
  have htrimmed : x ∈ (t.trimmed events).rows → ∃ r ∈ t.rows, x = r ∨ x = t.raise events r := by
    intro hx
    obtain ⟨r, hr, -, rfl⟩ := mem_rows_trimmed.mp hx
    exact ⟨r, hr, .inr rfl⟩
  cases h with
  | untouched => exact .inl ⟨x, hx, .inl rfl⟩
  | raised =>
    rw [rows_raised] at hx
    obtain ⟨r, hr, rfl⟩ := List.mem_map.mp hx
    exact .inl ⟨r, hr, .inr rfl⟩
  | trimmed => exact .inl (htrimmed hx)
  | merged =>
    rcases mem_rows_merged.mp hx with hx | hx
    · exact .inl (htrimmed hx)
    · exact .inr (mem_inserts.mp (event_mem_inserts hx)).2

/-- No stage invents a timestamp. -/
theorem Stage.dated (h : t.Stage events t') {x : StoredEvent} (hx : x ∈ t'.rows) :
    x.event.timestamp ∈ timestampsOf x.event.fingerprint t.rows events := by
  rcases h.origin hx with ⟨r, hr, rfl | rfl⟩ | ⟨-, hnew⟩
  · exact mem_timestampsOf.mpr (.inl ⟨x, hr, rfl, rfl⟩)
  · rw [raise_fingerprint]
    by_cases hcase : r.event.fingerprint ∈ events.map Event.fingerprint ∧ Leads t.rows r
    · exact (latest?_eq_some_iff.mp (raise_of_leads hcase.1 hcase.2)).1
    · rw [raise_of_not hcase]
      exact mem_timestampsOf.mpr (.inl ⟨r, hr, rfl, rfl⟩)
  · have hmem := (latest?_eq_some_iff.mp (newcomer?_eq_some hnew).2.1).1
    rcases mem_timestampsOf.mp hmem with ⟨r, hr, -⟩ | he
    · exact absurd hr List.not_mem_nil
    · exact mem_timestampsOf.mpr (.inr he)

theorem Stage.keeps_leading (h : t.Stage events t') {r : StoredEvent} (hr : r ∈ t.rows)
    (hlead : Leads t.rows r) : r ∈ t'.rows ∨ t.raise events r ∈ t'.rows := by
  have htrimmed : t.raise events r ∈ (t.trimmed events).rows := mem_trimmed_of_leads hr hlead
  cases h with
  | untouched => exact .inl hr
  | raised =>
    rw [rows_raised]
    exact .inr (List.mem_map_of_mem hr)
  | trimmed => exact .inr htrimmed
  | merged => exact .inr (mem_rows_merged.mpr (.inl htrimmed))

theorem Stage.rowsOf_eq (h : t.Stage events t') {f : Fingerprint}
    (hf : f ∉ events.map Event.fingerprint) : rowsOf f t'.rows = rowsOf f t.rows := by
  have hother : ∀ r ∈ rowsOf f t.rows, r.event.fingerprint ∉ events.map Event.fingerprint :=
    fun r hr => (mem_rowsOf.mp hr).2 ▸ hf
  have hraise : (rowsOf f t.rows).map (t.raise events) = rowsOf f t.rows := by
    rw [List.map_congr_left fun r hr => raise_of_not fun hcase => hother r hr hcase.1, List.map_id']
  have htrimmed : rowsOf f (t.trimmed events).rows = rowsOf f t.rows := by
    rw [rowsOf_trimmed, List.filter_eq_self.mpr fun r hr =>
      decide_eq_true fun hcase => absurd hcase (hother r hr), hraise]
  cases h with
  | untouched => rfl
  | raised => rw [rows_raised, rowsOf_map_raise, hraise]
  | trimmed => exact htrimmed
  | merged =>
    have hnone : rowsOf f (MemoryStore.numbered t.lastId (t.plan events).inserts) = [] := by
      refine rowsOf_eq_nil_iff.mpr fun hmem => ?_
      obtain ⟨x, hx, rfl⟩ := List.mem_map.mp hmem
      exact hf (mem_inserts.mp (event_mem_inserts hx)).1
    rw [rows_merged, rowsOf, List.filter_append, ← rowsOf, ← rowsOf, htrimmed, hnone,
      List.append_nil]

/-- No stage loses a fingerprint or sets it back. -/
theorem Stage.exists_later (h : t.Stage events t') {r : StoredEvent} (hr : r ∈ t.rows) :
    ∃ x ∈ t'.rows, x.event.fingerprint = r.event.fingerprint ∧
      r.event.timestamp ≤ x.event.timestamp := by
  by_cases hf : r.event.fingerprint ∈ events.map Event.fingerprint
  · obtain ⟨y, hy, hyr, hlead⟩ := exists_leads hr
    have htrimmed : t.raise events y ∈ (t.trimmed events).rows := mem_trimmed_of_leads hy hlead
    have hlater : r.event.timestamp ≤ (t.raise events y).event.timestamp :=
      (latest?_eq_some_iff.mp (raise_of_leads (hyr ▸ hf) hlead)).2 _
        (mem_timestampsOf.mpr (.inl ⟨r, hr, hyr.symm, rfl⟩))
    have hsame : (t.raise events y).event.fingerprint = r.event.fingerprint :=
      (raise_fingerprint ..).trans hyr
    cases h with
    | untouched => exact ⟨r, hr, rfl, Int.le_refl _⟩
    | raised =>
      refine ⟨t.raise events r, ?_, raise_fingerprint .., le_raise hr⟩
      rw [rows_raised]
      exact List.mem_map_of_mem hr
    | trimmed => exact ⟨_, htrimmed, hsame, hlater⟩
    | merged => exact ⟨_, mem_rows_merged.mpr (.inl htrimmed), hsame, hlater⟩
  · have hmem : r ∈ rowsOf r.event.fingerprint t'.rows :=
      (h.rowsOf_eq hf).symm ▸ mem_rowsOf.mpr ⟨hr, rfl⟩
    exact ⟨r, (mem_rowsOf.mp hmem).1, rfl, Int.le_refl _⟩

end

/-! ## Events that have arrived -/

/-- One row stands for the event, and it is no earlier. -/
def Holds (t : EventTable) (e : Event) : Prop :=
  ∃ r, rowsOf e.fingerprint t.rows = [r] ∧ e.timestamp ≤ r.event.timestamp

section

variable {t t' : EventTable} {events : List Event} {e : Event}

theorem holds_merged (he : e ∈ events) : (t.merged events).Holds e := by
  obtain ⟨r, hrows, hlatest, -⟩ := rowsOf_merged (t := t) (List.mem_map_of_mem he)
  refine ⟨r, hrows, (latest?_eq_some_iff.mp hlatest).2 _ ?_⟩
  exact mem_timestampsOf.mpr (.inr ⟨e, he, rfl, rfl⟩)

theorem Holds.stage (h : t.Holds e) (hstage : t.Stage events t') : t'.Holds e := by
  obtain ⟨r, hrows, hle⟩ := h
  by_cases hf : e.fingerprint ∈ events.map Event.fingerprint
  · obtain ⟨hr, hre⟩ := mem_of_rowsOf_eq hrows
    have hlead : Leads t.rows r := fun x hx hxr =>
      eq_of_rowsOf_eq hrows hx (hxr.trans hre) ▸ Int.le_refl _
    have hraise : e.timestamp ≤ (t.raise events r).event.timestamp :=
      Int.le_trans hle (le_raise hr)
    cases hstage with
    | untouched => exact ⟨r, hrows, hle⟩
    | raised =>
      refine ⟨t.raise events r, ?_, hraise⟩
      rw [rows_raised, rowsOf_map_raise, hrows, List.map_singleton]
    | trimmed =>
      refine ⟨t.raise events r, ?_, hraise⟩
      rw [rowsOf_trimmed, hrows, List.filter_eq_self.mpr fun x hx => ?_, List.map_singleton]
      exact decide_eq_true fun _ => List.mem_singleton.mp hx ▸ hlead
    | merged =>
      obtain ⟨x, hx, hlatest, -⟩ := rowsOf_merged (t := t) hf
      refine ⟨x, hx, Int.le_trans hle ((latest?_eq_some_iff.mp hlatest).2 _ ?_)⟩
      exact mem_timestampsOf.mpr (.inl ⟨r, hr, hre, rfl⟩)
  · exact ⟨r, (hstage.rowsOf_eq hf).trans hrows, hle⟩

end

/-! ## Lineage -/

/-- The second row is the first one, perhaps with another timestamp. -/
def Redated (x r : StoredEvent) : Prop :=
  r = { x with event.timestamp := r.event.timestamp }

namespace Redated

variable {x y z : StoredEvent}

theorem id_eq (h : Redated x y) : y.id = x.id := congrArg (·.id) h

theorem fingerprint_eq (h : Redated x y) : y.event.fingerprint = x.event.fingerprint :=
  congrArg (·.event.fingerprint) h

theorem trans (h : Redated x y) (h' : Redated y z) : Redated x z := by
  rw [Redated] at h h' ⊢
  rw [h] at h'
  exact h'

end Redated

/-- What survives of one table in another after merges of some of the estimates. -/
structure Lineage (estimate : Event → Prop) (t₀ t : EventTable) : Prop where
  origin : ∀ r ∈ t.rows,
    (∃ x ∈ t₀.rows, Redated x r) ∨
      r.event.fingerprint ∉ t₀.rows.map (·.event.fingerprint) ∧
        ∃ e, estimate e ∧ r.event = { e with timestamp := r.event.timestamp }
  dated : ∀ r ∈ t.rows,
    (∃ x ∈ t₀.rows, x.event.fingerprint = r.event.fingerprint ∧
      x.event.timestamp = r.event.timestamp) ∨
    ∃ e, estimate e ∧ e.fingerprint = r.event.fingerprint ∧ e.timestamp = r.event.timestamp
  leading : ∀ x ∈ t₀.rows, Leads t₀.rows x →
    ∃ r ∈ t.rows, Redated x r
  later : ∀ x ∈ t₀.rows, ∃ r ∈ t.rows, r.event.fingerprint = x.event.fingerprint ∧
    x.event.timestamp ≤ r.event.timestamp
  untouched : ∀ f, (∀ e, estimate e → e.fingerprint ≠ f) → rowsOf f t.rows = rowsOf f t₀.rows

/-- All timestamps that there ever were for a fingerprint. -/
def everSeen (estimate : Event → Prop) (t₀ : EventTable) (f : Fingerprint) : Set Int :=
  {time | (∃ x ∈ t₀.rows, x.event.fingerprint = f ∧ x.event.timestamp = time) ∨
    ∃ e, estimate e ∧ e.fingerprint = f ∧ e.timestamp = time}

theorem everSeen_mono {estimate estimate' : Event → Prop} {t₀ : EventTable} {f : Fingerprint}
    (h : ∀ e, estimate e → e.fingerprint = f → estimate' e) :
    everSeen estimate t₀ f ⊆ everSeen estimate' t₀ f := by
  rintro time (hrow | ⟨e, he, hf, htime⟩)
  · exact .inl hrow
  · exact .inr ⟨e, h e he hf, hf, htime⟩

namespace Lineage

variable {estimate : Event → Prop} {t₀ t t' : EventTable} {events : List Event}

theorem refl (estimate : Event → Prop) (t : EventTable) : Lineage estimate t t where
  origin r hr := .inl ⟨r, hr, rfl⟩
  dated r hr := .inl ⟨r, hr, rfl, rfl⟩
  leading r hr _ := ⟨r, hr, rfl⟩
  later r hr := ⟨r, hr, rfl, Int.le_refl _⟩
  untouched _ _ := rfl

theorem mono {estimate' : Event → Prop} (h : Lineage estimate t₀ t)
    (hle : ∀ e, estimate e → estimate' e) : Lineage estimate' t₀ t where
  origin r hr := (h.origin r hr).imp_right fun ⟨hnew, e, he, hre⟩ => ⟨hnew, e, hle e he, hre⟩
  dated r hr := (h.dated r hr).imp_right fun ⟨e, he, hre⟩ => ⟨e, hle e he, hre⟩
  leading := h.leading
  later := h.later
  untouched f hf := h.untouched f fun e he => hf e (hle e he)

/-- What is left of a leading row leads as well: rows of its fingerprint are old ones. -/
theorem leads (h : Lineage estimate t₀ t) {x r : StoredEvent} (hx : x ∈ t₀.rows)
    (hlead : Leads t₀.rows x) (hr : Redated x r) : Leads t.rows r := by
  intro y hy hyr
  rw [hr.fingerprint_eq] at hyr
  rcases h.origin y hy with ⟨z, hz, hzy⟩ | ⟨hnew, -⟩
  · rw [hr.id_eq, hzy.id_eq]
    exact hlead z hz (hzy.fingerprint_eq.symm.trans hyr)
  · exact absurd (List.mem_map.mpr ⟨x, hx, hyr.symm⟩) hnew

theorem stage (h : Lineage estimate t₀ t) (hstage : t.Stage events t')
    (hestimate : ∀ e ∈ events, estimate e) : Lineage estimate t₀ t' where
  origin x hx := by
    rcases hstage.origin hx with ⟨r, hr, hxr⟩ | ⟨hnew, hevent⟩
    · have hsame : Redated r x := by
        rcases hxr with rfl | rfl
        · rfl
        · exact raise_eq t events r
      rcases h.origin r hr with ⟨y, hy, hyr⟩ | ⟨hold, e, he, her⟩
      · exact .inl ⟨y, hy, hyr.trans hsame⟩
      · refine .inr ⟨hsame.fingerprint_eq ▸ hold, e, he, ?_⟩
        rw [Redated, her] at hsame
        exact congrArg StoredEvent.event hsame
    · obtain ⟨-, -, e, he, hxe⟩ := newcomer?_eq_some hevent
      refine .inr ⟨fun hold => hnew ?_, e, hestimate e he, hxe⟩
      obtain ⟨y, hy, hyx⟩ := List.mem_map.mp hold
      obtain ⟨r, hr, hry, -⟩ := h.later y hy
      exact List.mem_map.mpr ⟨r, hr, hry.trans hyx⟩
  dated x hx := by
    rcases mem_timestampsOf.mp (hstage.dated hx) with ⟨r, hr, hrx, htime⟩ | ⟨e, he, hex, htime⟩
    · rcases h.dated r hr with ⟨y, hy, hyr, hyt⟩ | ⟨e, he, her, het⟩
      · exact .inl ⟨y, hy, hyr.trans hrx, hyt.trans htime⟩
      · exact .inr ⟨e, he, her.trans hrx, het.trans htime⟩
    · exact .inr ⟨e, hestimate e he, hex, htime⟩
  leading x hx hlead := by
    obtain ⟨r, hr, hrx⟩ := h.leading x hx hlead
    rcases hstage.keeps_leading hr (h.leads hx hlead hrx) with hr | hr
    · exact ⟨r, hr, hrx⟩
    · exact ⟨_, hr, hrx.trans (raise_eq t events r)⟩
  later x hx := by
    obtain ⟨r, hr, hrx, hle⟩ := h.later x hx
    obtain ⟨y, hy, hyr, hle'⟩ := hstage.exists_later hr
    exact ⟨y, hy, hyr.trans hrx, Int.le_trans hle hle'⟩
  untouched f hf := by
    rw [hstage.rowsOf_eq fun hmem => ?_, h.untouched f hf]
    obtain ⟨e, he, hef⟩ := List.mem_map.mp hmem
    exact hf e (hestimate e he) hef

/-- When all estimates have arrived, each of their fingerprints has one row, with the greatest
timestamp. If there were rows before, it is the one that led them; otherwise it comes from one of
the estimates. -/
theorem exists_greatest (h : Lineage estimate t₀ t) (hall : ∀ e, estimate e → t.Holds e)
    {f : Fingerprint} (hf : ∃ e, estimate e ∧ e.fingerprint = f) :
    ∃ r, rowsOf f t.rows = [r] ∧ IsGreatest (everSeen estimate t₀ f) r.event.timestamp ∧
      (∀ x ∈ t₀.rows, x.event.fingerprint = f → Leads t₀.rows x → Redated x r) ∧
      ((∀ x ∈ t₀.rows, x.event.fingerprint ≠ f) →
        ∃ e, estimate e ∧ e.fingerprint = f ∧
          r.event = { e with timestamp := r.event.timestamp }) := by
  obtain ⟨e, he, rfl⟩ := hf
  obtain ⟨r, hrows, -⟩ := hall e he
  obtain ⟨hr, hre⟩ := mem_of_rowsOf_eq hrows
  refine ⟨r, hrows, ⟨?_, ?_⟩, ?_, ?_⟩
  · rw [← hre]
    exact h.dated r hr
  · rintro time (⟨x, hx, hxe, rfl⟩ | ⟨d, hd, hde, rfl⟩)
    · obtain ⟨y, hy, hyx, hle⟩ := h.later x hx
      exact eq_of_rowsOf_eq hrows hy (hyx.trans hxe) ▸ hle
    · obtain ⟨y, hy, hle⟩ := hall d hd
      rw [hde, hrows] at hy
      exact List.mem_singleton.mp (hy ▸ List.mem_singleton_self r) ▸ hle
  · intro x hx hxe hlead
    obtain ⟨y, hy, hxy⟩ := h.leading x hx hlead
    exact eq_of_rowsOf_eq hrows hy (hxy.fingerprint_eq.trans hxe) ▸ hxy
  · intro hnone
    rcases h.origin r hr with ⟨x, hx, hxr⟩ | ⟨-, d, hd, hdr⟩
    · exact absurd (hxr.fingerprint_eq.symm.trans hre) (hnone x hx)
    · refine ⟨d, hd, ?_, hdr⟩
      rw [← hre, hdr]

end Lineage

end EventTable

end StopArrivals
