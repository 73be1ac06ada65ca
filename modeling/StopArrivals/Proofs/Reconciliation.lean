import Mathlib.Data.List.Permutation
import StopArrivals.Proofs.Plan

/-!
# Plans that reconcile

What a merge plan has to hold can be said without runs, one fingerprint at a time: which id is set
to which timestamp, which ids go and which event comes in (`MergePlan.Reconciles`). The plan of a
merge holds exactly that (`reconciles_planMerge`). As the order of the stored rows plays no part in
it and it leaves no choice but the order of the deletes, the order of the rows makes no difference
to anything else (`Reconciles.perm`, `Reconciles.updates_eq`, `Reconciles.inserts_eq`).
-/

namespace StopArrivals

/-! ## The lowest id -/

def lowestId? (f : Fingerprint) (rows : List StoredEvent) : Option Int :=
  ((rowsOf f rows).map (·.id)).min?

section

variable {f : Fingerprint} {rows rows' : List StoredEvent} {events : List Event}

theorem lowestId?_eq_some_iff {i : Int} : lowestId? f rows = some i ↔
    ∃ r ∈ rows, r.event.fingerprint = f ∧ r.id = i ∧ Leads rows r := by
  rw [lowestId?, List.min?_eq_some_iff, List.mem_map]
  constructor
  · rintro ⟨⟨r, hmem, rfl⟩, hle⟩
    obtain ⟨hr, hrf⟩ := mem_rowsOf.mp hmem
    refine ⟨r, hr, hrf, rfl, fun x hx hxr => ?_⟩
    exact hle _ (List.mem_map_of_mem (mem_rowsOf.mpr ⟨hx, hxr.trans hrf⟩))
  · rintro ⟨r, hr, rfl, rfl, hlead⟩
    refine ⟨⟨r, mem_rowsOf.mpr ⟨hr, rfl⟩, rfl⟩, fun i hi => ?_⟩
    obtain ⟨x, hx, rfl⟩ := List.mem_map.mp hi
    exact hlead x (mem_rowsOf.mp hx).1 (mem_rowsOf.mp hx).2

theorem leads_iff_lowestId? {r : StoredEvent} (hr : r ∈ rows) :
    Leads rows r ↔ lowestId? r.event.fingerprint rows = some r.id := by
  rw [lowestId?_eq_some_iff]
  constructor
  · intro hlead
    exact ⟨r, hr, rfl, rfl, hlead⟩
  · rintro ⟨x, -, hxr, hid, hlead⟩ y hy hyr
    exact hid ▸ hlead y hy (hyr.trans hxr.symm)

theorem rowsOf_perm (hperm : rows.Perm rows') (f : Fingerprint) :
    (rowsOf f rows).Perm (rowsOf f rows') := hperm.filter _

theorem lowestId?_perm (hperm : rows.Perm rows') (f : Fingerprint) :
    lowestId? f rows = lowestId? f rows' := by
  refine Option.ext fun i => ?_
  simp only [lowestId?, List.min?_eq_some_iff, ((rowsOf_perm hperm f).map (·.id)).mem_iff]

theorem latest?_perm (hperm : rows.Perm rows') (f : Fingerprint) (events : List Event) :
    latest? f rows events = latest? f rows' events := by
  have htimes : (timestampsOf f rows events).Perm (timestampsOf f rows' events) :=
    ((rowsOf_perm hperm f).map _).append_right _
  refine Option.ext fun t => ?_
  simp only [latest?_eq_some_iff, htimes.mem_iff]

end

/-! ## The first event -/

/-- The event of a fingerprint with the earliest timestamp, the first one given of several. -/
def IsFirst (f : Fingerprint) (events : List Event) (e : Event) : Prop :=
  ∃ before after, events = before ++ e :: after ∧ e.fingerprint = f ∧
    (∀ d ∈ before, d.fingerprint = f → e.timestamp < d.timestamp) ∧
    ∀ d ∈ after, d.fingerprint = f → e.timestamp ≤ d.timestamp

theorem IsFirst.eq {f : Fingerprint} {events : List Event} {d e : Event}
    (hd : IsFirst f events d) (he : IsFirst f events e) : d = e := by
  obtain ⟨before, after, rfl, hf, hlt, hle⟩ := hd
  obtain ⟨before', after', hcut, hf', hlt', hle'⟩ := he
  rcases of_two_cuts hcut with h | ⟨he, hd⟩ | ⟨hd, he⟩
  · exact h
  · have h₁ := hle e he hf'
    have h₂ := hlt' d hd hf
    omega
  · have h₁ := hle' d hd hf
    have h₂ := hlt e he hf'
    omega

/-- Sorting is stable, so the first entry of a sorted list is the first one given of the least. -/
theorem head?_mergeSort {α : Type} {before : α → α → Bool}
    (htrans : ∀ a b c, before a b → before b c → before a c)
    (htotal : ∀ a b, before a b || before b a) {l : List α} {a : α}
    (h : (l.mergeSort before).head? = some a) :
    ∃ xs ys, l = xs ++ a :: ys ∧ (∀ x ∈ xs, ¬before x a) ∧ ∀ y ∈ ys, before a y := by
  induction l with
  | nil => simp at h
  | cons b l ih =>
      obtain ⟨l₁, l₂, hsort, hrest, hl₁⟩ := List.mergeSort_cons htrans htotal b l
      rw [hsort] at h
      cases l₁ with
      | nil =>
          obtain rfl := Option.some.inj h
          rw [List.nil_append] at hsort hrest
          have hsorted : (b :: l₂).Pairwise fun x y => before x y = true :=
            hsort ▸ List.pairwise_mergeSort htrans htotal (b :: l)
          refine ⟨[], l, rfl, fun x hx => absurd hx List.not_mem_nil, fun y hy => ?_⟩
          exact List.rel_of_pairwise_cons hsorted (hrest ▸ List.mem_mergeSort.mpr hy)
      | cons c l₁ =>
          -- Something comes before `b`, so the first entry is that of the rest of the list.
          obtain rfl := Option.some.inj h
          obtain ⟨xs, ys, rfl, hxs, hys⟩ := ih (by rw [hrest]; rfl)
          refine ⟨b :: xs, ys, rfl, ?_, hys⟩
          intro x hx
          rcases List.mem_cons.mp hx with rfl | hx
          · simpa using hl₁ c (List.mem_cons_self ..)
          · exact hxs x hx

theorem MergeRow.before_iff {a b : MergeRow} (h : a.event.fingerprint = b.event.fingerprint) :
    a.before b = true ↔ a.event.timestamp ≤ b.event.timestamp := by
  simp [MergeRow.before, h, Fingerprint.lt_irrefl]

/-- What comes in for a fingerprint is its first event, but for the timestamp. -/
theorem isFirst_of_newcomer? {f : Fingerprint} {fresh : List Event} {e : Event}
    (h : newcomer? fresh f = some e) :
    ∃ first, IsFirst f fresh first ∧ e = { first with timestamp := e.timestamp } := by
  rw [newcomer?, MergeRun.insert?, survivor?_mergeRun_eq_none_iff.mpr rfl] at h
  obtain ⟨row, hrow, t, -, rfl⟩ : ∃ row, (mergeRun [] fresh f).head? = some row ∧
      ∃ t, MergeRun.latest? (mergeRun [] fresh f) = some t ∧
        { row.event with timestamp := t } = e := by
    simpa [Option.bind_eq_some_iff] using h
  obtain ⟨xs, ys, hcut, hxs, hys⟩ :=
    head?_mergeSort MergeRow.byFingerprint.trans MergeRow.byFingerprint.total hrow
  obtain ⟨ds, rest, hevents, rfl, hrest⟩ := List.map_eq_append_iff.mp hcut
  obtain ⟨first, es, rfl, rfl, rfl⟩ := List.map_eq_cons_iff.mp hrest
  obtain ⟨before, after, rfl, hf, rfl, rfl⟩ := cut_of_filter hevents
  replace hf : first.fingerprint = f := of_decide_eq_true hf
  refine ⟨first, ⟨before, after, rfl, hf, fun d hd hdf => ?_, fun d hd hdf => ?_⟩, rfl⟩
  · have hnot := hxs _ (List.mem_map_of_mem (List.mem_filter.mpr ⟨hd, decide_eq_true hdf⟩))
    rw [MergeRow.before_iff (hdf.trans hf.symm)] at hnot
    exact Int.not_le.mp hnot
  · exact (MergeRow.before_iff (hf.trans hdf.symm)).mp
      (hys _ (List.mem_map_of_mem (List.mem_filter.mpr ⟨hd, decide_eq_true hdf⟩)))

/-! ## One entry for each fingerprint -/

section

variable {α : Type} {due : Fingerprint → Prop} {entry : Fingerprint → α → Prop}

/-- An entry for each fingerprint that is due, and no other, from the lowest fingerprint on. -/
def OneForEach (due : Fingerprint → Prop) (entry : Fingerprint → α → Prop) (entries : List α) :
    Prop :=
  ∃ fs : List Fingerprint, fs.Pairwise (· < ·) ∧ (∀ f, f ∈ fs ↔ due f) ∧
    List.Forall₂ entry fs entries

theorem forall₂_filterMap {β : Type} (g : β → Option α) (bs : List β) :
    List.Forall₂ (fun b a => g b = some a) (bs.filter fun b => (g b).isSome) (bs.filterMap g) := by
  induction bs with
  | nil => exact .nil
  | cons b bs ih =>
    cases hb : g b with
    | none => simpa [hb] using ih
    | some a => simpa [hb] using ih

theorem oneForEach_filterMap {keys : List Fingerprint} (hkeys : keys.Pairwise (· < ·))
    {g : Fingerprint → Option α} (hdue : ∀ f, (f ∈ keys ∧ ∃ a, g f = some a) ↔ due f)
    (hentry : ∀ f a, g f = some a → entry f a) : OneForEach due entry (keys.filterMap g) := by
  refine ⟨keys.filter fun f => (g f).isSome, hkeys.filter _, fun f => ?_,
    (forall₂_filterMap g keys).imp hentry⟩
  rw [List.mem_filter, Option.isSome_iff_exists]
  exact hdue f

/-- Where a fingerprint leaves no choice of its entry, there is one such list only. -/
theorem OneForEach.eq (hentry : Relator.RightUnique entry) {l m : List α}
    (hl : OneForEach due entry l) (hm : OneForEach due entry m) : l = m := by
  obtain ⟨fs, hfs, hdue, hl⟩ := hl
  obtain ⟨gs, hgs, hdue', hm⟩ := hm
  obtain rfl : fs = gs :=
    eq_of_ascending id hfs hgs fun f => (hdue f).trans (hdue' f).symm
  exact List.right_unique_forall₂' hentry hl hm

end

/-! ## What a plan has to hold -/

section

variable (stored : List StoredEvent) (fresh : List Event) (f : Fingerprint)

/-- A stored fingerprint that is not all there is of it. -/
def UpdateDue : Prop :=
  rowsOf f stored ≠ [] ∧ 2 ≤ (rowsOf f stored).length + (eventsOf f fresh).length

/-- The lowest id is set to the latest timestamp. -/
def IsUpdate (u : TimestampUpdate) : Prop :=
  lowestId? f stored = some u.id ∧ latest? f stored fresh = some u.timestamp

/-- A fingerprint that is not stored yet. -/
def InsertDue : Prop := rowsOf f stored = [] ∧ eventsOf f fresh ≠ []

/-- The first event, with the latest timestamp. -/
def IsInsert (e : Event) : Prop :=
  e.fingerprint = f ∧ latest? f stored fresh = some e.timestamp ∧
    ∃ first, IsFirst f fresh first ∧ e = { first with timestamp := e.timestamp }

variable {stored fresh f}

theorem insertDue_iff : InsertDue stored fresh f ↔
    f ∉ stored.map (·.event.fingerprint) ∧ f ∈ fresh.map Event.fingerprint := by
  rw [InsertDue, rowsOf_eq_nil_iff, ne_eq, eventsOf_eq_nil_iff, not_not]

theorem isUpdate_unique : Relator.RightUnique (IsUpdate stored fresh) := by
  rintro f ⟨i, t⟩ ⟨i', t'⟩ ⟨hid, htime⟩ ⟨hid', htime'⟩
  obtain rfl : i = i' := Option.some.inj (hid.symm.trans hid')
  obtain rfl : t = t' := Option.some.inj (htime.symm.trans htime')
  rfl

theorem isInsert_unique : Relator.RightUnique (IsInsert stored fresh) := by
  rintro f d e ⟨-, htime, first, hfirst, hd⟩ ⟨-, htime', first', hfirst', he⟩
  obtain rfl := hfirst.eq hfirst'
  rw [hd, he, Option.some.inj (htime.symm.trans htime')]

end

/-- A plan that brings some stored rows and fresh events together, seen from the fingerprints. -/
structure MergePlan.Reconciles (plan : MergePlan) (stored : List StoredEvent)
    (fresh : List Event) : Prop where
  updates : OneForEach (UpdateDue stored fresh) (IsUpdate stored fresh) plan.updates
  inserts : OneForEach (InsertDue stored fresh) (IsInsert stored fresh) plan.inserts
  nodup_deletes : plan.deletes.Nodup
  /-- Of each fingerprint all ids go but the lowest. -/
  mem_deletes : ∀ i, i ∈ plan.deletes ↔
    ∃ r ∈ stored, r.id = i ∧ lowestId? r.event.fingerprint stored ≠ some i

section

variable {plan plan' : MergePlan} {stored stored' : List StoredEvent} {fresh : List Event}

namespace MergePlan.Reconciles

theorem perm (h : plan.Reconciles stored fresh) (hperm : stored.Perm stored') :
    plan.Reconciles stored' fresh := by
  have hlength : ∀ f, (rowsOf f stored).length = (rowsOf f stored').length :=
    fun f => (rowsOf_perm hperm f).length_eq
  have hnil : ∀ f, rowsOf f stored = [] ↔ rowsOf f stored' = [] := by
    intro f
    rw [← List.length_eq_zero_iff, hlength, List.length_eq_zero_iff]
  have hupdateDue : UpdateDue stored fresh = UpdateDue stored' fresh := by
    funext f
    simp only [UpdateDue, ne_eq, hnil, hlength]
  have hinsertDue : InsertDue stored fresh = InsertDue stored' fresh := by
    funext f
    simp only [InsertDue, hnil]
  have hisUpdate : IsUpdate stored fresh = IsUpdate stored' fresh := by
    funext f u
    simp only [IsUpdate, lowestId?_perm hperm, latest?_perm hperm]
  have hisInsert : IsInsert stored fresh = IsInsert stored' fresh := by
    funext f e
    simp only [IsInsert, latest?_perm hperm]
  exact
    { updates := hupdateDue ▸ hisUpdate ▸ h.updates
      inserts := hinsertDue ▸ hisInsert ▸ h.inserts
      nodup_deletes := h.nodup_deletes
      mem_deletes := fun i => by
        simp only [h.mem_deletes, hperm.mem_iff, lowestId?_perm hperm] }

theorem updates_eq (h : plan.Reconciles stored fresh) (h' : plan'.Reconciles stored fresh) :
    plan.updates = plan'.updates :=
  h.updates.eq isUpdate_unique h'.updates

theorem inserts_eq (h : plan.Reconciles stored fresh) (h' : plan'.Reconciles stored fresh) :
    plan.inserts = plan'.inserts :=
  h.inserts.eq isInsert_unique h'.inserts

end MergePlan.Reconciles

/-! ## The plan of a merge -/

theorem updates_planMerge :
    OneForEach (UpdateDue stored fresh) (IsUpdate stored fresh)
      (planMerge stored fresh).updates := by
  rw [updates_eq]
  refine oneForEach_filterMap (pairwise_inOrder _) (fun f => ?_) fun f u hu => ?_
  · constructor
    · rintro ⟨-, u, hu⟩
      obtain ⟨⟨r, hr, hrf, -⟩, -, hlength⟩ := update?_mergeRun_eq_some_iff.mp hu
      exact ⟨List.ne_nil_of_mem (mem_rowsOf.mpr ⟨hr, hrf⟩), hlength⟩
    · rintro ⟨hrows, hlength⟩
      obtain ⟨r, hmem⟩ := List.exists_mem_of_ne_nil _ hrows
      obtain ⟨hr, rfl⟩ := mem_rowsOf.mp hmem
      obtain ⟨x, hx, hxr, hlead⟩ := exists_leads hr
      obtain ⟨t, ht⟩ : ∃ t, latest? r.event.fingerprint stored fresh = some t :=
        exists_latest (.inl ⟨r, hr, rfl⟩)
      exact ⟨mem_mergedFingerprints.mpr (.inl ⟨r, hr, rfl⟩), ⟨x.id, t⟩,
        update?_mergeRun_eq_some_iff.mpr ⟨⟨x, hx, hxr, rfl, hlead⟩, ht, hlength⟩⟩
  · obtain ⟨hrow, htime, -⟩ := update?_mergeRun_eq_some_iff.mp hu
    exact ⟨lowestId?_eq_some_iff.mpr hrow, htime⟩

theorem inserts_planMerge :
    OneForEach (InsertDue stored fresh) (IsInsert stored fresh)
      (planMerge stored fresh).inserts := by
  rw [inserts_eq]
  refine oneForEach_filterMap (pairwise_inOrder _) (fun f => ?_) fun f e he => ?_
  · simp only [insertDue_iff, Option.ite_none_left_eq_some]
    constructor
    · rintro ⟨-, e, hrows, he⟩
      obtain ⟨rfl, -, e₀, he₀, hee₀⟩ := newcomer?_eq_some he
      exact ⟨hrows, List.mem_map.mpr ⟨e₀, he₀, by rw [hee₀]⟩⟩
    · rintro ⟨hrows, hevents⟩
      obtain ⟨e, he⟩ := exists_newcomer (List.mem_map.mp hevents)
      exact ⟨mem_mergedFingerprints.mpr (.inr (List.mem_map.mp hevents)), e, hrows, he⟩
  · obtain ⟨hrows, he⟩ := Option.ite_none_left_eq_some.mp he
    obtain ⟨rfl, htime, -⟩ := newcomer?_eq_some he
    refine ⟨rfl, ?_, isFirst_of_newcomer? he⟩
    rwa [latest?, timestampsOf, rowsOf_eq_nil_iff.mpr hrows]

theorem nodup_deletes (hids : (stored.map (·.id)).Nodup) :
    (planMerge stored fresh).deletes.Nodup := by
  -- The ids of a run are those of its rows, so no two runs have one in common.
  have hrow : ∀ {f : Fingerprint} {s : Survivor},
      MergeRun.survivor? (mergeRun stored fresh f) = some s →
        (s.id :: s.others).Nodup ∧
          ∀ i ∈ s.others, ∃ r ∈ stored, r.event.fingerprint = f ∧ r.id = i := by
    intro f s hs
    have hperm := (survivor?_mergeRun hs).2
    refine ⟨hperm.nodup_iff.mpr (hids.sublist (List.filter_sublist.map _)), fun i hi => ?_⟩
    obtain ⟨r, hr, rfl⟩ := List.mem_map.mp (hperm.mem_iff.mp (List.mem_cons_of_mem _ hi))
    exact ⟨r, (mem_rowsOf.mp hr).1, (mem_rowsOf.mp hr).2, rfl⟩
  simp only [planMerge, mergeRuns_eq, List.flatMap_map, List.nodup_flatMap]
  refine ⟨fun f _ => ?_, (List.nodup_iff_pairwise_ne.mp (nodup_inOrder _)).imp fun {f g} hfg => ?_⟩
  · rw [MergeRun.deletes]
    split
    · next s hs => exact (List.nodup_cons.mp (hrow hs).1).2
    · exact List.nodup_nil
  · intro i hi hi'
    obtain ⟨s, hs, hi⟩ := mem_deletes.mp hi
    obtain ⟨s', hs', hi'⟩ := mem_deletes.mp hi'
    obtain ⟨r, hr, rfl, hri⟩ := (hrow hs).2 i hi
    obtain ⟨x, hx, rfl, hxi⟩ := (hrow hs').2 i hi'
    exact hfg (by rw [List.inj_on_of_nodup_map hids hr hx (hri.trans hxi.symm)])

theorem reconciles_planMerge (hids : (stored.map (·.id)).Nodup) :
    (planMerge stored fresh).Reconciles stored fresh where
  updates := updates_planMerge
  inserts := inserts_planMerge
  nodup_deletes := nodup_deletes hids
  mem_deletes i := by
    rw [mem_deletes_iff hids]
    refine exists_congr fun r => and_congr_right fun hr => ?_
    rw [leads_iff_lowestId? hr]
    constructor
    · rintro ⟨rfl, hlow⟩
      exact ⟨rfl, hlow⟩
    · rintro ⟨rfl, hlow⟩
      exact ⟨rfl, hlow⟩

/-- Nothing comes in for a fingerprint that is stored. -/
theorem fingerprint_not_stored {e : Event} (he : e ∈ (planMerge stored fresh).inserts) :
    e.fingerprint ∉ stored.map (·.event.fingerprint) := by
  simp only [inserts_eq, List.mem_filterMap, Option.ite_none_left_eq_some] at he
  obtain ⟨f, -, hrows, he⟩ := he
  rwa [(newcomer?_eq_some he).1]

/-- A row that goes on is not deleted. -/
theorem disjoint_updates_deletes (hids : (stored.map (·.id)).Nodup) :
    ((planMerge stored fresh).updates.map (·.id)).Disjoint (planMerge stored fresh).deletes := by
  intro i hupdated hdeleted
  obtain ⟨u, hu, rfl⟩ := List.mem_map.mp hupdated
  obtain ⟨r, hr, hlead, hur, -⟩ := mem_updates_iff.mp hu
  obtain ⟨x, hx, hxu, hnot⟩ := (mem_deletes_iff hids).mp hdeleted
  obtain rfl : x = r := List.inj_on_of_nodup_map hids hx hr (hxu.trans hur)
  exact hnot hlead

/-- The plan of a merge reconciles the rows with the events. It names no id twice, it inserts
nothing for a fingerprint that it deletes from, and the order of the rows can change nothing about
it but the order of the deletes. -/
theorem plan_reconciles (hids : (stored.map (·.id)).Nodup) (fresh : List Event) :
    (planMerge stored fresh).Reconciles stored fresh ∧
      ((planMerge stored fresh).updates.map (·.id) ++ (planMerge stored fresh).deletes).Nodup ∧
      (∀ r ∈ stored, r.id ∈ (planMerge stored fresh).deletes →
        r.event.fingerprint ∉ (planMerge stored fresh).inserts.map Event.fingerprint) ∧
      ∀ others, stored.Perm others →
        (planMerge others fresh).updates = (planMerge stored fresh).updates ∧
          (planMerge others fresh).inserts = (planMerge stored fresh).inserts ∧
          ∀ i, i ∈ (planMerge others fresh).deletes ↔ i ∈ (planMerge stored fresh).deletes := by
  have hplan : (planMerge stored fresh).Reconciles stored fresh := reconciles_planMerge hids
  refine ⟨hplan, ?_, ?_, ?_⟩
  · exact List.nodup_append'.mpr
      ⟨nodup_updates hids, hplan.nodup_deletes, disjoint_updates_deletes hids⟩
  · intro r hr _ hmem
    obtain ⟨e, he, hef⟩ := List.mem_map.mp hmem
    exact fingerprint_not_stored he (hef ▸ List.mem_map_of_mem hr)
  · intro others hperm
    have hothers : (planMerge others fresh).Reconciles stored fresh :=
      (reconciles_planMerge ((hperm.map (·.id)).nodup_iff.mp hids)).perm hperm.symm
    refine ⟨hothers.updates_eq hplan, hothers.inserts_eq hplan, fun i => ?_⟩
    rw [hothers.mem_deletes, hplan.mem_deletes]

end

/-- A fingerprint with two rows, the lower id second, and one that is settled. -/
def rowsInDisorder : List StoredEvent :=
  [⟨5, sampleEvent 7 100⟩, ⟨2, sampleEvent 7 150⟩, ⟨3, sampleEvent 4 30⟩]

theorem plan_reconciles_rows_in_disorder :
    (rowsInDisorder.map (·.id)).Nodup ∧
      (planMerge rowsInDisorder [sampleEvent 7 120, sampleEvent 9 40, sampleEvent 9 20]).Reconciles
        rowsInDisorder [sampleEvent 7 120, sampleEvent 9 40, sampleEvent 9 20] ∧
      (planMerge rowsInDisorder.reverse
        [sampleEvent 7 120, sampleEvent 9 40, sampleEvent 9 20]).updates = [⟨2, 150⟩] := by
  have hids : (rowsInDisorder.map (·.id)).Nodup := by decide
  have hplan : (planMerge rowsInDisorder
      [sampleEvent 7 120, sampleEvent 9 40, sampleEvent 9 20]).updates = [⟨2, 150⟩] := by
    cbv
  obtain ⟨hreconciles, -, -, hperm⟩ :=
    plan_reconciles hids [sampleEvent 7 120, sampleEvent 9 40, sampleEvent 9 20]
  obtain ⟨hupdates, -⟩ := hperm _ (List.reverse_perm rowsInDisorder).symm
  exact ⟨hids, hreconciles, hupdates.trans hplan⟩

end StopArrivals
