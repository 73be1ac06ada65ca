import Mathlib.Order.Bounds.Basic
import StopArrivals.Proofs.LatestCandidates
import StopArrivals.Proofs.Lineage
import StopArrivals.Proofs.Retry

/-!
# Merges of many lists

A store into which lists of events are merged, one after the other, absorbs them all
(`MemoryStore.absorbs_mergeInTurn`), and what it has absorbed does not depend on how the events were
cut into lists or on the order they came in: a fingerprint with events has one row, with the greatest
timestamp there ever was (`MemoryStore.batching_irrelevant`).

The choice of the latest candidates does depend on the lists. A candidate that is passed over in the
whole list may be kept in a part of it, so a list that is cut in two gives the same rows, or some
with later timestamps (`MemoryStore.splitting_loses_nothing`).
-/

namespace StopArrivals

/-! ## What a table has absorbed -/

namespace EventTable

/-- The second table is what the first one became by merges of the events. -/
structure Absorbs (t₀ : EventTable) (events : List Event) (t : EventTable) : Prop where
  lineage : Lineage (· ∈ events) t₀ t
  arrived : ∀ e ∈ events, t.Holds e

namespace Absorbs

variable {t₀ t t' : EventTable} {events events' : List Event} {f : Fingerprint}

theorem nil (t : EventTable) : Absorbs t [] t where
  lineage := .refl _ t
  arrived _ he := absurd he List.not_mem_nil

theorem merged (h : Absorbs t₀ events t) (more : List Event) :
    Absorbs t₀ (events ++ more) (t.merged more) where
  lineage := by
    have hmore : Lineage (· ∈ events ++ more) t₀ t :=
      h.lineage.mono fun e he => List.mem_append_left more he
    exact hmore.stage .merged fun e he => List.mem_append_right events he
  arrived e he := by
    rcases List.mem_append.mp he with he | he
    · exact (h.arrived e he).stage .merged
    · exact holds_merged he

theorem perm (h : Absorbs t₀ events t) (hperm : events.Perm events') : Absorbs t₀ events' t where
  lineage := h.lineage.mono fun _ he => hperm.mem_iff.mp he
  arrived e he := h.arrived e (hperm.mem_iff.mpr he)

theorem rowsOf_eq (h : Absorbs t₀ events t) (hf : f ∉ events.map Event.fingerprint) :
    rowsOf f t.rows = rowsOf f t₀.rows :=
  h.lineage.untouched f fun e he hef => hf (List.mem_map.mpr ⟨e, he, hef⟩)

theorem exists_row (h : Absorbs t₀ events t) (hf : f ∈ events.map Event.fingerprint) :
    ∃ r, rowsOf f t.rows = [r] ∧
      IsGreatest (everSeen (· ∈ events) t₀ f) r.event.timestamp := by
  obtain ⟨r, hrows, hgreatest, -⟩ := h.lineage.exists_greatest h.arrived (List.mem_map.mp hf)
  exact ⟨r, hrows, hgreatest⟩

/-- Tables that have absorbed the same events have the same timestamps. -/
theorem timestamps_eq (h : Absorbs t₀ events t) (h' : Absorbs t₀ events t') (f : Fingerprint) :
    (rowsOf f t.rows).map (·.event.timestamp) = (rowsOf f t'.rows).map (·.event.timestamp) := by
  by_cases hf : f ∈ events.map Event.fingerprint
  · obtain ⟨r, hr, hgreatest⟩ := h.exists_row hf
    obtain ⟨r', hr', hgreatest'⟩ := h'.exists_row hf
    rw [hr, hr', List.map_singleton, List.map_singleton, hgreatest.unique hgreatest']
  · rw [h.rowsOf_eq hf, h'.rowsOf_eq hf]

/-- If the events of one fingerprint differ in nothing else, the tables differ in ids only: rows
that were there before were led by the same row. -/
theorem events_eq (h : Absorbs t₀ events t) (h' : Absorbs t₀ events t')
    (hagree : ∀ a ∈ events, ∀ b ∈ events, a.fingerprint = b.fingerprint →
      a = { b with timestamp := a.timestamp }) (f : Fingerprint) :
    (rowsOf f t.rows).map (·.event) = (rowsOf f t'.rows).map (·.event) := by
  by_cases hf : f ∈ events.map Event.fingerprint
  · obtain ⟨r, hr, hgreatest, hold, hnew⟩ :=
      h.lineage.exists_greatest h.arrived (List.mem_map.mp hf)
    obtain ⟨r', hr', hgreatest', hold', hnew'⟩ :=
      h'.lineage.exists_greatest h'.arrived (List.mem_map.mp hf)
    have htime : r.event.timestamp = r'.event.timestamp := hgreatest.unique hgreatest'
    have hevent : r.event = r'.event := by
      by_cases hrows : ∃ x ∈ t₀.rows, x.event.fingerprint = f
      · obtain ⟨y, hy, hyf⟩ := hrows
        obtain ⟨x, hx, hxy, hlead⟩ := exists_leads hy
        have hxr : Redated x r := hold x hx (hxy.trans hyf) hlead
        have hxr' : Redated x r' := hold' x hx (hxy.trans hyf) hlead
        rw [hxr, hxr', htime]
      · have hnone : ∀ x ∈ t₀.rows, x.event.fingerprint ≠ f :=
          fun x hx hxf => hrows ⟨x, hx, hxf⟩
        obtain ⟨e, he, hef, hre⟩ := hnew hnone
        obtain ⟨e', he', hef', hre'⟩ := hnew' hnone
        rw [hre, hre', htime, hagree e he e' he' (hef.trans hef'.symm)]
    rw [hr, hr', List.map_singleton, List.map_singleton, hevent]
  · rw [h.rowsOf_eq hf, h'.rowsOf_eq hf]

end Absorbs

end EventTable

namespace MemoryStore

/-! ## Snapshots -/

theorem byFingerprint_snapshot :
    ByFingerprint Event.fingerprint fun a b : Event => a.fingerprint ≤ b.fingerprint where
  trans a b c hab hbc := by
    simp only [decide_eq_true_eq] at *
    exact Fingerprint.le_trans hab hbc
  total a b := by
    simp only [Bool.or_eq_true, decide_eq_true_eq]
    exact Fingerprint.le_total _ _
  le _ _ := of_decide_eq_true

/-- A snapshot shows the events of each fingerprint, in the order of their rows. -/
theorem snapshot_congr {s s' : MemoryStore}
    (h : ∀ f, (rowsOf f s.rows).map (·.event) = (rowsOf f s'.rows).map (·.event)) :
    s.snapshot = s'.snapshot := by
  refine byFingerprint_snapshot.mergeSort_congr fun f => ?_
  rw [List.filter_map, List.filter_map]
  exact h f

/-! ## Merging one list after the other -/

/-- Merge lists of events as long as it goes well. -/
def mergeInTurn : List (List Event) → MemoryStore → Except Fault (List MergeReport) × MemoryStore
  | [], s => (.ok [], s)
  | events :: batches, s =>
    following ((mergeEvents store events).run.effect s) fun report s₁ =>
      following (mergeInTurn batches s₁) fun reports s₂ => (.ok (report :: reports), s₂)

section

variable {s : MemoryStore}

theorem absorbs_mergeInTurn {t₀ : EventTable} : ∀ {events : List Event}
    (batches : List (List Event)) {s : MemoryStore}, s.failNext = none →
      t₀.Absorbs events s.table → ∃ reports s', mergeInTurn batches s = (.ok reports, s') ∧
        t₀.Absorbs (events ++ batches.flatten) s'.table
  | events, [], s, _, h => ⟨[], s, rfl, by rwa [List.flatten_nil, List.append_nil]⟩
  | events, batch :: batches, s, hs, h => by
      obtain ⟨report, s₁, hmerge, htable, hs₁⟩ := merge_succeeds hs batch
      have hfirst : t₀.Absorbs (events ++ batch) s₁.table := htable ▸ h.merged batch
      obtain ⟨reports, s₂, hrest, hall⟩ := absorbs_mergeInTurn batches hs₁ hfirst
      refine ⟨report :: reports, s₂, ?_, ?_⟩
      · rw [mergeInTurn, hmerge, following_ok, hrest, following_ok]
      · rwa [List.flatten_cons, ← List.append_assoc]

/-- Where no failure was set, lists of events merge to the same timestamps for each fingerprint, in
whatever order and however the events are cut into lists; and to the same snapshot if the events of
a fingerprint differ in their timestamps only. A fingerprint with events has one row then, with the
greatest timestamp there ever was. -/
theorem batching_irrelevant {batches batches' : List (List Event)} (hs : s.failNext = none)
    (hperm : batches.flatten.Perm batches'.flatten) :
    ∃ reports reports' s₁ s₂, mergeInTurn batches s = (.ok reports, s₁) ∧
      mergeInTurn batches' s = (.ok reports', s₂) ∧
      (∀ f, (rowsOf f s₁.rows).map (·.event.timestamp) =
        (rowsOf f s₂.rows).map (·.event.timestamp)) ∧
      (∀ f ∈ batches.flatten.map Event.fingerprint, ∃ r, rowsOf f s₁.rows = [r] ∧
        IsGreatest (EventTable.everSeen (· ∈ batches.flatten) s.table f) r.event.timestamp) ∧
      ((∀ a ∈ batches.flatten, ∀ b ∈ batches.flatten, a.fingerprint = b.fingerprint →
        a = { b with timestamp := a.timestamp }) → s₁.snapshot = s₂.snapshot) := by
  obtain ⟨reports, s₁, hrun₁, h₁⟩ := absorbs_mergeInTurn batches hs (.nil s.table)
  obtain ⟨reports', s₂, hrun₂, h₂⟩ := absorbs_mergeInTurn batches' hs (.nil s.table)
  rw [List.nil_append] at h₁ h₂
  replace h₂ := h₂.perm hperm.symm
  exact ⟨reports, reports', s₁, s₂, hrun₁, hrun₂, h₁.timestamps_eq h₂, fun f hf => h₁.exists_row hf,
    fun hagree => snapshot_congr (h₁.events_eq h₂ hagree)⟩

/-- Three events of two visits, merged in two lists and, the other way round, in one. -/
theorem batching_irrelevant_of_three_events :
    (ofEvents [sampleEvent 9 20]).failNext = none ∧
    [[sampleEvent 7 10], [sampleEvent 9 30, sampleEvent 7 40]].flatten.Perm
      [[sampleEvent 7 40, sampleEvent 9 30, sampleEvent 7 10]].flatten ∧
    (mergeInTurn [[sampleEvent 7 10], [sampleEvent 9 30, sampleEvent 7 40]]
      (ofEvents [sampleEvent 9 20])).2.snapshot =
    (mergeInTurn [[sampleEvent 7 40, sampleEvent 9 30, sampleEvent 7 10]]
      (ofEvents [sampleEvent 9 20])).2.snapshot := by
  have hs : (ofEvents [sampleEvent 9 20]).failNext = none := rfl
  have hperm : [[sampleEvent 7 10], [sampleEvent 9 30, sampleEvent 7 40]].flatten.Perm
      [[sampleEvent 7 40, sampleEvent 9 30, sampleEvent 7 10]].flatten := by decide
  obtain ⟨reports, reports', s₁, s₂, hrun₁, hrun₂, -, -, hsnapshot⟩ :=
    batching_irrelevant hs hperm
  refine ⟨hs, hperm, ?_⟩
  rw [hrun₁, hrun₂]
  exact hsnapshot (by decide)

/-! ## Splitting a list of candidates -/

/-- A list of candidates that is cut in two, and merged part by part, gives one row for each of its
fingerprints like the whole list, no earlier than that does, and no later if only one of the parts
has the fingerprint. The other rows are the same. -/
theorem splitting_loses_nothing (hs : s.failNext = none) (a b : List Candidate) :
    ∃ reports reports' s₁ s₂, mergeInTurn [latestEvents a, latestEvents b] s = (.ok reports, s₁) ∧
      mergeInTurn [latestEvents (a ++ b)] s = (.ok reports', s₂) ∧
      (∀ f ∈ (a ++ b).map (·.event.fingerprint), ∃ r₁ r₂, rowsOf f s₁.rows = [r₁] ∧
        rowsOf f s₂.rows = [r₂] ∧ r₂.event.timestamp ≤ r₁.event.timestamp ∧
        (f ∉ a.map (·.event.fingerprint) ∨ f ∉ b.map (·.event.fingerprint) →
          r₁.event.timestamp = r₂.event.timestamp)) ∧
      ∀ f ∉ (a ++ b).map (·.event.fingerprint), rowsOf f s₁.rows = rowsOf f s₂.rows := by
  obtain ⟨reports, s₁, hrun₁, h₁⟩ :=
    absorbs_mergeInTurn [latestEvents a, latestEvents b] hs (.nil s.table)
  obtain ⟨reports', s₂, hrun₂, h₂⟩ :=
    absorbs_mergeInTurn [latestEvents (a ++ b)] hs (.nil s.table)
  simp only [List.nil_append, List.flatten_cons, List.flatten_nil, List.append_nil] at h₁ h₂
  have hparts : ∀ f, f ∈ (latestEvents a ++ latestEvents b).map Event.fingerprint ↔
      f ∈ (a ++ b).map (·.event.fingerprint) := by
    simp only [List.map_append, List.mem_append, fingerprints_latestEvents, implies_true]
  refine ⟨reports, reports', s₁, s₂, hrun₁, hrun₂, fun f hf => ?_, fun f hf => ?_⟩
  · obtain ⟨r₁, hr₁, hgreatest₁⟩ := h₁.exists_row ((hparts f).mpr hf)
    obtain ⟨r₂, hr₂, hgreatest₂⟩ := h₂.exists_row (fingerprints_latestEvents.mpr hf)
    have hle : r₂.event.timestamp ≤ r₁.event.timestamp :=
      hgreatest₂.mono hgreatest₁ (EventTable.everSeen_mono fun e he _ =>
        List.mem_append.mpr (mem_latestEvents_of_append he))
    refine ⟨r₁, r₂, hr₁, hr₂, hle, fun honly => Int.le_antisymm ?_ hle⟩
    refine hgreatest₁.mono hgreatest₂ (EventTable.everSeen_mono fun e he hef => ?_)
    exact mem_latestEvents_append (hef.symm ▸ honly) (List.mem_append.mp he)
  · have hf₁ : rowsOf f s₁.rows = rowsOf f s.rows := h₁.rowsOf_eq (mt (hparts f).mp hf)
    have hf₂ : rowsOf f s₂.rows = rowsOf f s.rows :=
      h₂.rowsOf_eq (mt fingerprints_latestEvents.mp hf)
    rw [hf₁, hf₂]

/-- The later message has the earlier estimate: the whole list keeps that one, and the two parts
come to the other. -/
theorem splitting_loses_nothing_of_two_messages :
    (ofEvents []).failNext = none ∧
    ∃ reports reports' s₁ s₂,
      mergeInTurn [latestEvents [⟨sampleEvent 7 40, 1⟩], latestEvents [⟨sampleEvent 7 10, 2⟩]]
        (ofEvents []) = (.ok reports, s₁) ∧
      mergeInTurn [latestEvents [⟨sampleEvent 7 40, 1⟩, ⟨sampleEvent 7 10, 2⟩]]
        (ofEvents []) = (.ok reports', s₂) ∧
      ∃ r₁ r₂, rowsOf (sampleEvent 7 40).fingerprint s₁.rows = [r₁] ∧
        rowsOf (sampleEvent 7 40).fingerprint s₂.rows = [r₂] ∧
        r₂.event.timestamp ≤ r₁.event.timestamp := by
  have hs : (ofEvents []).failNext = none := rfl
  obtain ⟨reports, reports', s₁, s₂, hrun₁, hrun₂, hrows, -⟩ :=
    splitting_loses_nothing hs [⟨sampleEvent 7 40, 1⟩] [⟨sampleEvent 7 10, 2⟩]
  obtain ⟨r₁, r₂, hr₁, hr₂, hle, -⟩ := hrows (sampleEvent 7 40).fingerprint (by decide)
  exact ⟨hs, reports, reports', s₁, s₂, hrun₁, hrun₂, r₁, r₂, hr₁, hr₂, hle⟩

end

end MemoryStore

end StopArrivals
