import StopArrivals.Merge.Plan
import StopArrivals.Proofs.Runs

/-!
# What a merge plan holds

A plan, read fingerprint by fingerprint. The row with the lowest id leads the rows of its
fingerprint: it is updated to the latest timestamp, the rows that it leads are deleted, and a
fingerprint without a row gets one. The order in which the stored rows come makes no difference to
the updates, the inserts and the set of deletes.
-/

namespace StopArrivals

/-! ## Rows and events of a fingerprint -/

def rowsOf (f : Fingerprint) (rows : List StoredEvent) : List StoredEvent :=
  rows.filter fun r => r.event.fingerprint = f

def eventsOf (f : Fingerprint) (events : List Event) : List Event :=
  events.filter fun e => e.fingerprint = f

@[simp] theorem mem_rowsOf {f : Fingerprint} {rows : List StoredEvent} {r : StoredEvent} :
    r ∈ rowsOf f rows ↔ r ∈ rows ∧ r.event.fingerprint = f := by
  simp [rowsOf]

@[simp] theorem mem_eventsOf {f : Fingerprint} {events : List Event} {e : Event} :
    e ∈ eventsOf f events ↔ e ∈ events ∧ e.fingerprint = f := by
  simp [eventsOf]

theorem rowsOf_eq_nil_iff {f : Fingerprint} {rows : List StoredEvent} :
    rowsOf f rows = [] ↔ f ∉ rows.map (·.event.fingerprint) := by
  simp [rowsOf]

theorem eventsOf_eq_nil_iff {f : Fingerprint} {events : List Event} :
    eventsOf f events = [] ↔ f ∉ events.map Event.fingerprint := by
  simp [eventsOf]

/-- A selection that passes all rows of a fingerprint has the same of them. -/
theorem rowsOf_filter {f : Fingerprint} {rows : List StoredEvent} {p : StoredEvent → Bool}
    (h : ∀ r ∈ rows, r.event.fingerprint = f → p r = true) :
    rowsOf f (rows.filter p) = rowsOf f rows := by
  rw [rowsOf, List.filter_filter]
  refine List.filter_congr fun r hr => ?_
  by_cases hf : r.event.fingerprint = f
  · rw [h r hr hf, Bool.and_true]
  · rw [decide_eq_false hf, Bool.false_and]

theorem mem_of_rowsOf_eq {f : Fingerprint} {rows : List StoredEvent} {r : StoredEvent}
    (h : rowsOf f rows = [r]) : r ∈ rows ∧ r.event.fingerprint = f :=
  mem_rowsOf.mp (h ▸ List.mem_singleton_self r)

theorem eq_of_rowsOf_eq {f : Fingerprint} {rows : List StoredEvent} {r x : StoredEvent}
    (h : rowsOf f rows = [r]) (hx : x ∈ rows) (hf : x.event.fingerprint = f) : x = r :=
  List.mem_singleton.mp (h ▸ mem_rowsOf.mpr ⟨hx, hf⟩)

/-- No row of the same fingerprint has a lower id. -/
def Leads (rows : List StoredEvent) (r : StoredEvent) : Prop :=
  ∀ x ∈ rows, x.event.fingerprint = r.event.fingerprint → r.id ≤ x.id

instance (rows : List StoredEvent) (r : StoredEvent) : Decidable (Leads rows r) :=
  inferInstanceAs (Decidable (∀ x ∈ rows, x.event.fingerprint = r.event.fingerprint → r.id ≤ x.id))

theorem Leads.id_eq {rows : List StoredEvent} {r x : StoredEvent} (h : Leads rows r)
    (h' : Leads rows x) (hr : r ∈ rows) (hx : x ∈ rows)
    (hf : r.event.fingerprint = x.event.fingerprint) : r.id = x.id :=
  Int.le_antisymm (h x hx hf.symm) (h' r hr hf)

theorem exists_leads {rows : List StoredEvent} {r : StoredEvent} (hr : r ∈ rows) :
    ∃ x ∈ rows, x.event.fingerprint = r.event.fingerprint ∧ Leads rows x := by
  induction rows generalizing r with
  | nil => cases hr
  | cons a rows ih =>
      by_cases hrest : ∃ y ∈ rows, y.event.fingerprint = r.event.fingerprint
      · obtain ⟨y, hy, hyr⟩ := hrest
        obtain ⟨x, hx, hxy, hlead⟩ := ih hy
        by_cases hax : a.event.fingerprint = x.event.fingerprint ∧ a.id < x.id
        · refine ⟨a, List.mem_cons_self .., by rw [hax.1, hxy, hyr], fun z hz hza => ?_⟩
          rcases List.mem_cons.mp hz with rfl | hz
          · exact Int.le_refl _
          · have := hlead z hz (hza.trans hax.1)
            omega
        · refine ⟨x, List.mem_cons_of_mem _ hx, hxy.trans hyr, fun z hz hzx => ?_⟩
          rcases List.mem_cons.mp hz with rfl | hz
          · exact Int.not_lt.mp fun hlt => hax ⟨hzx, hlt⟩
          · exact hlead z hz hzx
      · have hra : r = a := by
          rcases List.mem_cons.mp hr with h | h
          · exact h
          · exact absurd ⟨r, h, rfl⟩ hrest
        subst hra
        refine ⟨r, List.mem_cons_self .., rfl, fun z hz hzr => ?_⟩
        rcases List.mem_cons.mp hz with rfl | hz
        · exact Int.le_refl _
        · exact absurd ⟨z, hz, hzr⟩ hrest

/-! ## The latest timestamp -/

def timestampsOf (f : Fingerprint) (rows : List StoredEvent) (events : List Event) : List Int :=
  (rowsOf f rows).map (·.event.timestamp) ++ (eventsOf f events).map Event.timestamp

/-- The latest timestamp of a fingerprint, among rows and events. -/
def latest? (f : Fingerprint) (rows : List StoredEvent) (events : List Event) : Option Int :=
  (timestampsOf f rows events).max?

theorem mem_timestampsOf {f : Fingerprint} {rows : List StoredEvent} {events : List Event}
    {t : Int} : t ∈ timestampsOf f rows events ↔
      (∃ r ∈ rows, r.event.fingerprint = f ∧ r.event.timestamp = t) ∨
        ∃ e ∈ events, e.fingerprint = f ∧ e.timestamp = t := by
  simp only [timestampsOf, List.mem_append, List.mem_map, mem_rowsOf, mem_eventsOf, and_assoc]

theorem latest?_eq_some_iff {f : Fingerprint} {rows : List StoredEvent} {events : List Event}
    {t : Int} : latest? f rows events = some t ↔
      t ∈ timestampsOf f rows events ∧ ∀ x ∈ timestampsOf f rows events, x ≤ t :=
  List.max?_eq_some_iff

theorem exists_latest {f : Fingerprint} {rows : List StoredEvent} {events : List Event}
    (h : (∃ r ∈ rows, r.event.fingerprint = f) ∨ ∃ e ∈ events, e.fingerprint = f) :
    ∃ t, latest? f rows events = some t := by
  refine Option.ne_none_iff_exists'.mp fun hnone => ?_
  have hempty := List.max?_eq_none_iff.mp hnone
  rcases h with ⟨r, hr, hf⟩ | ⟨e, he, hf⟩
  · exact List.not_mem_nil (hempty ▸ mem_timestampsOf.mpr (.inl ⟨r, hr, hf, rfl⟩))
  · exact List.not_mem_nil (hempty ▸ mem_timestampsOf.mpr (.inr ⟨e, he, hf, rfl⟩))

/-! ## The run of a fingerprint -/

theorem MergeRow.byFingerprint :
    ByFingerprint (fun r : MergeRow => r.event.fingerprint) MergeRow.before :=
  .thenBy _ fun r : MergeRow => r.event.timestamp

/-- Stored rows and fresh events of one fingerprint, in order. -/
def mergeRun (stored : List StoredEvent) (fresh : List Event) (f : Fingerprint) : List MergeRow :=
  ((rowsOf f stored).map MergeRow.stored ++ (eventsOf f fresh).map MergeRow.fresh).mergeSort
    MergeRow.before

def mergedFingerprints (stored : List StoredEvent) (fresh : List Event) : List Fingerprint :=
  inOrder (stored.map (·.event.fingerprint) ++ fresh.map Event.fingerprint)

theorem mergeRuns_eq (stored : List StoredEvent) (fresh : List Event) :
    mergeRuns stored fresh = (mergedFingerprints stored fresh).map (mergeRun stored fresh) := by
  rw [mergeRuns, runs_eq MergeRow.byFingerprint, mergedFingerprints, List.map_append,
    List.map_map, List.map_map]
  refine List.map_congr_left fun f _ => ?_
  rw [mergeRun, List.filter_append, List.filter_map, List.filter_map]
  rfl

section

variable (stored : List StoredEvent) (fresh : List Event) (f : Fingerprint)

theorem mergeRun_perm : (mergeRun stored fresh f).Perm
    ((rowsOf f stored).map MergeRow.stored ++ (eventsOf f fresh).map MergeRow.fresh) :=
  List.mergeSort_perm _ _

theorem ids_mergeRun :
    ((mergeRun stored fresh f).filterMap MergeRow.id).Perm ((rowsOf f stored).map (·.id)) := by
  refine ((mergeRun_perm stored fresh f).filterMap _).trans (List.Perm.of_eq ?_)
  rw [List.filterMap_append, List.filterMap_map, List.filterMap_map]
  have hfresh : (eventsOf f fresh).filterMap (MergeRow.id ∘ MergeRow.fresh) = [] :=
    List.filterMap_eq_nil_iff.mpr fun _ _ => rfl
  have hstored : (rowsOf f stored).filterMap (MergeRow.id ∘ MergeRow.stored) =
      (rowsOf f stored).map (·.id) := by
    rw [← List.filterMap_eq_map]
    rfl
  rw [hfresh, hstored, List.append_nil]

theorem latest?_mergeRun :
    MergeRun.latest? (mergeRun stored fresh f) = latest? f stored fresh := by
  have hperm : ((mergeRun stored fresh f).map (·.event.timestamp)).Perm
      (timestampsOf f stored fresh) := by
    refine ((mergeRun_perm stored fresh f).map _).trans (List.Perm.of_eq ?_)
    rw [List.map_append, List.map_map, List.map_map]
    rfl
  refine Option.ext fun t => ?_
  rw [MergeRun.latest?, latest?_eq_some_iff, List.max?_eq_some_iff]
  simp only [hperm.mem_iff]

theorem length_mergeRun :
    (mergeRun stored fresh f).length = (rowsOf f stored).length + (eventsOf f fresh).length := by
  rw [(mergeRun_perm stored fresh f).length_eq, List.length_append, List.length_map,
    List.length_map]

end

/-! ## The survivor of a run -/

theorem survivor?_eq_none_iff {ids : List Int} : survivor? ids = none ↔ ids = [] := by
  cases ids <;> simp [survivor?]

/-- Meeting ids loses none of them, and the lowest one goes on. -/
theorem foldl_meet : ∀ (ids : List Int) (s : Survivor),
    let t := ids.foldl Survivor.meet s
    (t.id :: t.others).Perm (s.id :: s.others ++ ids) ∧ t.id ≤ s.id ∧ ∀ i ∈ ids, t.id ≤ i
  | [], s => ⟨by simp, Int.le_refl _, by simp⟩
  | i :: ids, s => by
      obtain ⟨hperm, hle, hall⟩ := foldl_meet ids (s.meet i)
      have hmeet : ((s.meet i).id :: (s.meet i).others).Perm (s.id :: s.others ++ [i]) ∧
          (s.meet i).id ≤ s.id ∧ (s.meet i).id ≤ i := by
        rw [Survivor.meet]
        split
        · next h => exact ⟨by simp, Int.le_refl _, Int.le_of_lt h⟩
        · next h =>
          refine ⟨?_, Int.not_lt.mp h, Int.le_refl _⟩
          have : (i :: s.id :: s.others).Perm (s.id :: s.others ++ [i]) :=
            (List.perm_append_singleton i (s.id :: s.others)).symm
          exact ((List.perm_append_singleton s.id s.others).cons i).trans this
      refine ⟨?_, Int.le_trans hle hmeet.2.1, fun j hj => ?_⟩
      · have := hperm.trans (hmeet.1.append_right ids)
        rwa [List.append_assoc, List.singleton_append] at this
      · rcases List.mem_cons.mp hj with rfl | hj
        · exact Int.le_trans hle hmeet.2.2
        · exact hall j hj

theorem survivor?_eq_some {ids : List Int} {s : Survivor} (h : survivor? ids = some s) :
    (s.id :: s.others).Perm ids ∧ ∀ i ∈ ids, s.id ≤ i := by
  cases ids with
  | nil => cases h
  | cons i ids =>
      obtain rfl := Option.some.inj h
      obtain ⟨hperm, hle, hall⟩ := foldl_meet ids ⟨i, []⟩
      refine ⟨hperm, fun j hj => ?_⟩
      rcases List.mem_cons.mp hj with rfl | hj
      · exact hle
      · exact hall j hj

section

variable {stored : List StoredEvent} {fresh : List Event} {f : Fingerprint}

theorem survivor?_mergeRun_eq_none_iff :
    MergeRun.survivor? (mergeRun stored fresh f) = none ↔ rowsOf f stored = [] := by
  rw [MergeRun.survivor?, survivor?_eq_none_iff]
  constructor
  · intro h
    have hperm := ids_mergeRun stored fresh f
    rw [h] at hperm
    exact List.map_eq_nil_iff.mp hperm.nil_eq.symm
  · intro h
    have hperm := ids_mergeRun stored fresh f
    rw [h, List.map_nil] at hperm
    exact hperm.eq_nil

theorem exists_survivor {r : StoredEvent} (hr : r ∈ stored) (hf : r.event.fingerprint = f)
    (fresh : List Event) : ∃ s, MergeRun.survivor? (mergeRun stored fresh f) = some s := by
  refine Option.ne_none_iff_exists'.mp fun hnone => ?_
  exact List.not_mem_nil (survivor?_mergeRun_eq_none_iff.mp hnone ▸ mem_rowsOf.mpr ⟨hr, hf⟩)

/-- The survivor of a run is a row that leads, and the others are the rows beside it. -/
theorem survivor?_mergeRun {s : Survivor}
    (h : MergeRun.survivor? (mergeRun stored fresh f) = some s) :
    (∃ r ∈ stored, r.event.fingerprint = f ∧ r.id = s.id ∧ Leads stored r) ∧
      (s.id :: s.others).Perm ((rowsOf f stored).map (·.id)) := by
  obtain ⟨hperm, hle⟩ := survivor?_eq_some h
  have hids := hperm.trans (ids_mergeRun stored fresh f)
  refine ⟨?_, hids⟩
  obtain ⟨r, hr, hid⟩ := List.mem_map.mp (hids.mem_iff.mp (List.mem_cons_self ..))
  rw [mem_rowsOf] at hr
  refine ⟨r, hr.1, hr.2, hid, fun x hx hxr => ?_⟩
  rw [hid]
  refine hle _ ((ids_mergeRun stored fresh f).mem_iff.mpr ?_)
  exact List.mem_map.mpr ⟨x, mem_rowsOf.mpr ⟨hx, hxr.trans hr.2⟩, rfl⟩

end

/-! ## The plan -/

section

variable {stored : List StoredEvent} {fresh : List Event}

theorem mem_mergedFingerprints {f : Fingerprint} :
    f ∈ mergedFingerprints stored fresh ↔
      (∃ r ∈ stored, r.event.fingerprint = f) ∨ ∃ e ∈ fresh, e.fingerprint = f := by
  simp only [mergedFingerprints, mem_inOrder, List.mem_append, List.mem_map]

theorem update?_mergeRun_eq_some_iff {f : Fingerprint} {u : TimestampUpdate} :
    MergeRun.update? (mergeRun stored fresh f) = some u ↔
      (∃ r ∈ stored, r.event.fingerprint = f ∧ r.id = u.id ∧ Leads stored r) ∧
        latest? f stored fresh = some u.timestamp ∧
        1 < (rowsOf f stored).length + (eventsOf f fresh).length := by
  simp only [MergeRun.update?, latest?_mergeRun, length_mergeRun, Option.bind_eq_bind,
    Option.bind_eq_some_iff]
  constructor
  · rintro ⟨s, hs, t, ht, hu⟩
    split at hu
    · next hlen =>
      obtain rfl := Option.some.inj hu
      exact ⟨(survivor?_mergeRun hs).1, ht, hlen⟩
    · cases hu
  · rintro ⟨⟨r, hr, rfl, hid, hlead⟩, ht, hlen⟩
    obtain ⟨s, hs⟩ := exists_survivor hr rfl fresh
    obtain ⟨⟨x, hx, hxr, hxid, hxlead⟩, -⟩ := survivor?_mergeRun hs
    have hsr : s.id = r.id := hxid ▸ hxlead.id_eq hlead hx hr hxr
    exact ⟨s, hs, _, ht, by rw [if_pos hlen, hsr, hid]⟩

/-- The updates: one for each fingerprint that needs it, from the lowest on. -/
theorem updates_eq : (planMerge stored fresh).updates =
    (mergedFingerprints stored fresh).filterMap fun f =>
      MergeRun.update? (mergeRun stored fresh f) := by
  rw [planMerge, mergeRuns_eq]
  exact List.filterMap_map ..

/-- A row that leads is set to the latest timestamp of its fingerprint, unless nothing else has
the fingerprint. -/
theorem mem_updates_iff {u : TimestampUpdate} :
    u ∈ (planMerge stored fresh).updates ↔
      ∃ r ∈ stored, Leads stored r ∧ u.id = r.id ∧
        latest? r.event.fingerprint stored fresh = some u.timestamp ∧
        1 < (rowsOf r.event.fingerprint stored).length +
          (eventsOf r.event.fingerprint fresh).length := by
  simp only [updates_eq, List.mem_filterMap, update?_mergeRun_eq_some_iff]
  constructor
  · rintro ⟨f, -, ⟨r, hr, rfl, hid, hlead⟩, ht, hlen⟩
    exact ⟨r, hr, hlead, hid.symm, ht, hlen⟩
  · rintro ⟨r, hr, hlead, hid, ht, hlen⟩
    exact ⟨_, mem_mergedFingerprints.mpr (.inl ⟨r, hr, rfl⟩), ⟨r, hr, rfl, hid.symm, hlead⟩, ht,
      hlen⟩

/-- No row is updated twice. -/
theorem nodup_updates (hids : (stored.map (·.id)).Nodup) :
    ((planMerge stored fresh).updates.map (·.id)).Nodup := by
  rw [updates_eq]
  refine List.nodup_iff_pairwise_ne.mpr (List.pairwise_map.mpr ?_)
  refine (List.nodup_iff_pairwise_ne.mp (nodup_inOrder _)).filterMap _ fun f g hfg u hu v hv => ?_
  obtain ⟨⟨r, hr, rfl, hru, -⟩, -⟩ := update?_mergeRun_eq_some_iff.mp hu
  obtain ⟨⟨x, hx, rfl, hxv, -⟩, -⟩ := update?_mergeRun_eq_some_iff.mp hv
  intro huv
  have hrx : r = x := List.inj_on_of_nodup_map hids hr hx (by rw [hru, huv, hxv])
  exact hfg (by rw [hrx])

theorem mem_deletes {run : List MergeRow} {i : Int} :
    i ∈ MergeRun.deletes run ↔ ∃ s, MergeRun.survivor? run = some s ∧ i ∈ s.others := by
  rw [MergeRun.deletes]
  cases MergeRun.survivor? run <;> simp

/-- The deletes: the rows that do not lead. -/
theorem mem_deletes_iff (hids : (stored.map (·.id)).Nodup) {i : Int} :
    i ∈ (planMerge stored fresh).deletes ↔ ∃ r ∈ stored, r.id = i ∧ ¬Leads stored r := by
  simp only [planMerge, mergeRuns_eq, List.mem_flatMap, List.mem_map, exists_exists_and_eq_and,
    mem_deletes]
  constructor
  · rintro ⟨f, -, s, hs, hi⟩
    obtain ⟨⟨x, hx, hxf, hxid, hxlead⟩, hperm⟩ := survivor?_mergeRun hs
    obtain ⟨r, hr, rfl⟩ := List.mem_map.mp (hperm.mem_iff.mp (List.mem_cons_of_mem _ hi))
    rw [mem_rowsOf] at hr
    refine ⟨r, hr.1, rfl, fun hlead => ?_⟩
    have hnodup : (s.id :: s.others).Nodup :=
      hperm.nodup_iff.mpr (hids.sublist (List.filter_sublist.map _))
    have hrs : r.id = s.id := hxid ▸ hlead.id_eq hxlead hr.1 hx (hr.2.trans hxf.symm)
    exact (List.nodup_cons.mp hnodup).1 (hrs ▸ hi)
  · rintro ⟨r, hr, rfl, hlead⟩
    obtain ⟨s, hs⟩ := exists_survivor hr rfl fresh
    refine ⟨_, mem_mergedFingerprints.mpr (.inl ⟨r, hr, rfl⟩), s, hs, ?_⟩
    obtain ⟨⟨x, hx, hxr, hxid, hxlead⟩, hperm⟩ := survivor?_mergeRun hs
    have hmem : r ∈ rowsOf r.event.fingerprint stored := mem_rowsOf.mpr ⟨hr, rfl⟩
    rcases List.mem_cons.mp (hperm.mem_iff.mpr (List.mem_map_of_mem hmem)) with h | h
    · exact absurd (fun y hy hyr => h ▸ hxid ▸ hxlead y hy (hyr.trans hxr.symm)) hlead
    · exact h

/-- The event that is inserted for a fingerprint without a row: the first in the order of a run,
with the latest timestamp. -/
def newcomer? (fresh : List Event) (f : Fingerprint) : Option Event :=
  MergeRun.insert? (mergeRun [] fresh f)

/-- The inserts: a newcomer for each fingerprint without a row, from the lowest on. -/
theorem inserts_eq :
    (planMerge stored fresh).inserts = (mergedFingerprints stored fresh).filterMap fun f =>
      if f ∈ stored.map (·.event.fingerprint) then none else newcomer? fresh f := by
  simp only [planMerge, mergeRuns_eq, List.filterMap_map]
  refine List.filterMap_congr fun f _ => ?_
  rw [Function.comp_apply]
  split
  · next hf =>
    obtain ⟨r, hr, hrf⟩ := List.mem_map.mp hf
    obtain ⟨s, hs⟩ := exists_survivor hr hrf fresh
    rw [MergeRun.insert?, hs]
  · next hf =>
    rw [newcomer?, mergeRun, mergeRun, rowsOf_eq_nil_iff.mpr hf]
    rfl

theorem newcomer?_eq_some {f : Fingerprint} {e : Event} (h : newcomer? fresh f = some e) :
    e.fingerprint = f ∧ latest? f [] fresh = some e.timestamp ∧
      ∃ e₀ ∈ fresh, e = { e₀ with timestamp := e.timestamp } := by
  rw [newcomer?, MergeRun.insert?, survivor?_mergeRun_eq_none_iff.mpr rfl, latest?_mergeRun] at h
  obtain ⟨first, hfirst, t, ht, rfl⟩ : ∃ first, (mergeRun [] fresh f).head? = some first ∧
      ∃ t, latest? f [] fresh = some t ∧ { first.event with timestamp := t } = e := by
    simpa [Option.bind_eq_some_iff] using h
  have hmem := (mergeRun_perm [] fresh f).mem_iff.mp (List.mem_of_head? hfirst)
  obtain ⟨e₀, he₀, rfl⟩ : ∃ e₀ ∈ eventsOf f fresh, MergeRow.fresh e₀ = first := by
    simpa [rowsOf] using hmem
  rw [mem_eventsOf] at he₀
  exact ⟨he₀.2, ht, e₀, he₀.1, rfl⟩

theorem exists_newcomer {f : Fingerprint} (h : ∃ e ∈ fresh, e.fingerprint = f) :
    ∃ e, newcomer? fresh f = some e := by
  obtain ⟨t, ht⟩ : ∃ t, latest? f [] fresh = some t := exists_latest (.inr h)
  obtain ⟨e, he, hf⟩ := h
  have hne : mergeRun [] fresh f ≠ [] := fun hnil => by
    have hmem := (mergeRun_perm [] fresh f).mem_iff (a := .fresh e)
    rw [hnil] at hmem
    refine List.not_mem_nil (hmem.mpr (List.mem_append_right _ ?_))
    exact List.mem_map_of_mem (mem_eventsOf.mpr ⟨he, hf⟩)
  obtain ⟨first, hfirst⟩ := Option.ne_none_iff_exists'.mp (mt List.head?_eq_none_iff.mp hne)
  rw [newcomer?, MergeRun.insert?, survivor?_mergeRun_eq_none_iff.mpr rfl, latest?_mergeRun,
    hfirst, ht]
  exact ⟨_, rfl⟩

/-! ## The order of the stored rows -/

theorem rowsOf_eq_of_perm {stored' : List StoredEvent} (hperm : stored.Perm stored')
    (hunique : (stored'.map (·.event.fingerprint)).Nodup) (f : Fingerprint) :
    rowsOf f stored = rowsOf f stored' := by
  have hrows : (rowsOf f stored).Perm (rowsOf f stored') := hperm.filter _
  rcases hcases : rowsOf f stored' with _ | ⟨r, _ | ⟨x, rest⟩⟩
  · rw [hcases] at hrows
    exact hrows.eq_nil
  · rw [hcases] at hrows
    exact List.perm_singleton.mp hrows
  · -- Two rows of one fingerprint are one row too many.
    have hsame : ∀ y ∈ rowsOf f stored', y.event.fingerprint = f := fun y hy => (mem_rowsOf.mp hy).2
    have hnodup := hunique.sublist (List.filter_sublist (p := fun r : StoredEvent =>
      r.event.fingerprint = f) |>.map (·.event.fingerprint))
    rw [← rowsOf, hcases] at hnodup
    rw [hcases] at hsame
    have hrx : r.event.fingerprint = x.event.fingerprint :=
      (hsame r (by simp)).trans (hsame x (by simp)).symm
    exact absurd (List.mem_map.mpr ⟨x, List.mem_cons_self .., hrx.symm⟩)
      (List.nodup_cons.mp hnodup).1

/-- With one row for each fingerprint, the order of the rows makes no difference. -/
theorem planMerge_perm {stored' : List StoredEvent} (hperm : stored.Perm stored')
    (hunique : (stored'.map (·.event.fingerprint)).Nodup) :
    planMerge stored fresh = planMerge stored' fresh := by
  have hkeys : mergedFingerprints stored fresh = mergedFingerprints stored' fresh := by
    refine eq_inOrder (pairwise_inOrder _) fun f => ?_
    simp only [mem_mergedFingerprints, List.mem_append, List.mem_map, hperm.mem_iff]
  have hruns : mergeRuns stored fresh = mergeRuns stored' fresh := by
    rw [mergeRuns_eq, mergeRuns_eq, hkeys]
    refine List.map_congr_left fun f _ => ?_
    rw [mergeRun, mergeRun, rowsOf_eq_of_perm hperm hunique]
  rw [planMerge, planMerge, hruns]

end

end StopArrivals
