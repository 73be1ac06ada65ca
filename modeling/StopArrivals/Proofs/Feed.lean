import Mathlib.Data.List.Nodup
import StopArrivals.Batch.Memory
import StopArrivals.Ledger.Memory
import StopArrivals.Proofs.Effects
import StopArrivals.Proofs.Grouping

/-!
# Feeds

The objects that a ledger in memory starts with, the files behind them, and what a service is told
to look for. A feed fixes which partitions there are and what each of them has to say. A ledger that
starts with the feed is marked folder by folder: `ledgerRows` are its rows when some folders are
done, a listing gives the partitions of the others in full, and marking one of these adds its folder
to those that are done.
-/

namespace StopArrivals

structure Feed where
  paths : List String
  batches : MemoryBatches
  tag : String
  horizon : Int

namespace Feed

variable (F : Feed)

def objects : List SourceObject := MemoryLedger.numberedObjects 0 F.paths

def tagged : List SourceObject :=
  F.objects.filter fun o => isPartOf F.tag.toList o.path.toList

/-- All there is to one folder. -/
def partition (folder : String) : Partition := ⟨folder, inFolder folder F.tagged⟩

/-- The events of a folder; a folder is good when there is no fault. -/
def events (folder : String) : Except Fault (List Event) :=
  prepared F.horizon
    (F.batches.load tripUpdateColumns tripUpdateFilters (F.partition folder).paths)

def Estimate (e : Event) : Prop := ∃ folder events, F.events folder = .ok events ∧ e ∈ events

/-- The rows of the ledger when the objects of some folders are marked. -/
def ledgerRows (done : List String) : List LedgerRow :=
  F.objects.map fun o => ⟨o, decide (o ∈ F.tagged ∧ folderOf o.path ∈ done)⟩

variable {F}

theorem mem_tagged {o : SourceObject} :
    o ∈ F.tagged ↔ o ∈ F.objects ∧ isPartOf F.tag.toList o.path.toList = true := List.mem_filter

theorem mem_partition {folder : String} {o : SourceObject} :
    o ∈ (F.partition folder).objects ↔ o ∈ F.tagged ∧ folderOf o.path = folder := mem_inFolder

theorem mem_ledgerRows {done : List String} {o : SourceObject} :
    ⟨o, true⟩ ∈ F.ledgerRows done ↔ o ∈ F.tagged ∧ folderOf o.path ∈ done := by
  simp only [ledgerRows, List.mem_map, LedgerRow.mk.injEq, decide_eq_true_eq]
  constructor
  · rintro ⟨x, -, rfl, h⟩
    exact h
  · exact fun h => ⟨o, (mem_tagged.mp h.1).1, rfl, h⟩

theorem ledgerRows_nil : F.ledgerRows [] = (MemoryLedger.ofPaths F.paths).rows := by
  simp [ledgerRows, MemoryLedger.ofPaths, objects]

theorem exists_tagged {folder : String} {events : List Event} (h : F.events folder = .ok events)
    {e : Event} (he : e ∈ events) : ∃ o ∈ F.tagged, folderOf o.path = folder := by
  by_contra hnone
  have hempty : inFolder folder F.tagged = [] := List.eq_nil_iff_forall_not_mem.mpr fun o ho =>
    hnone ⟨o, mem_inFolder.mp ho⟩
  rw [Feed.events, Partition.paths, partition, hempty] at h
  have hnil : latestEvents [] = [] := by
    rw [latestEvents, candidateRuns, List.mergeSort_nil]
    rfl
  obtain rfl : [] = events := Except.ok.inj ((congrArg Except.ok hnil.symm).trans h)
  exact List.not_mem_nil he

/-! ## Ids -/

theorem lt_id_of_mem_numberedObjects : ∀ {paths : List String} {last : Int} {o : SourceObject},
    o ∈ MemoryLedger.numberedObjects last paths → last < o.id
  | path :: paths, last, o, ho => by
      rcases List.mem_cons.mp ho with rfl | ho
      · exact Int.lt_succ last
      · exact Int.lt_trans (Int.lt_succ last) (lt_id_of_mem_numberedObjects ho)

theorem nodup_ids_numberedObjects : ∀ (paths : List String) (last : Int),
    ((MemoryLedger.numberedObjects last paths).map SourceObject.id).Nodup
  | [], _ => List.nodup_nil
  | path :: paths, last => by
      refine List.nodup_cons.mpr ⟨fun hmem => ?_, nodup_ids_numberedObjects paths (last + 1)⟩
      obtain ⟨o, ho, hid⟩ := List.mem_map.mp hmem
      exact absurd hid (ne_of_gt (lt_id_of_mem_numberedObjects ho))

/-- An object is known by its id. -/
theorem mem_ids_partition {folder : String} {o : SourceObject} (ho : o ∈ F.objects) :
    o.id ∈ (F.partition folder).ids ↔ o ∈ F.tagged ∧ folderOf o.path = folder := by
  rw [← mem_partition, Partition.ids, List.mem_map]
  constructor
  · rintro ⟨x, hx, hid⟩
    have hxo : x ∈ F.objects := (mem_tagged.mp (mem_partition.mp hx).1).1
    rwa [← List.inj_on_of_nodup_map (nodup_ids_numberedObjects F.paths 0) hxo ho hid]
  · exact fun h => ⟨o, h, rfl⟩

/-! ## Listing and marking -/

theorem pending_ledgerRows {l : MemoryLedger} {done : List String}
    (h : l.rows = F.ledgerRows done) :
    l.pending F.tag = F.tagged.filter fun o => folderOf o.path ∉ done := by
  have hobject : LedgerRow.object ∘ (fun o : SourceObject =>
      (⟨o, decide (o ∈ F.tagged ∧ folderOf o.path ∈ done)⟩ : LedgerRow)) = id := rfl
  rw [MemoryLedger.pending, h, ledgerRows, List.filter_map, List.map_map, hobject, List.map_id]
  conv_rhs => rw [tagged, List.filter_filter]
  refine List.filter_congr fun o ho => ?_
  by_cases htag : isPartOf F.tag.toList o.path.toList = true
  · have hmem : o ∈ F.tagged := mem_tagged.mpr ⟨ho, htag⟩
    simp [htag, hmem]
  · simp [htag]

/-- A listed partition is a full one, and its folder is not done. -/
theorem eq_partition_of_listed {done : List String} {p : Partition}
    (hp : p ∈ groupPartitions (F.tagged.filter fun o => folderOf o.path ∉ done)) :
    p = F.partition p.key ∧ p.key ∉ done := by
  obtain ⟨hne, hobjects⟩ := mem_groupPartitions.mp hp
  have hnot : p.key ∉ done := by
    intro hdone
    refine hne (hobjects.trans (List.eq_nil_iff_forall_not_mem.mpr fun o ho => ?_))
    obtain ⟨ho, hfolder⟩ := mem_inFolder.mp ho
    exact of_decide_eq_true (List.mem_filter.mp ho).2 (hfolder ▸ hdone)
  refine ⟨?_, hnot⟩
  have hfull : inFolder p.key (F.tagged.filter fun o => folderOf o.path ∉ done) =
      inFolder p.key F.tagged := by
    rw [inFolder, List.filter_filter]
    refine List.filter_congr fun o _ => ?_
    by_cases hkey : folderOf o.path = p.key
    · simp [hkey, hnot]
    · simp [hkey]
  rw [partition, ← hfull, ← hobjects]

theorem markRow_ledgerRows (done : List String) (folder : String) :
    (F.ledgerRows done).map (MemoryLedger.markRow (F.partition folder).ids) =
      F.ledgerRows (done ++ [folder]) := by
  rw [ledgerRows, ledgerRows, List.map_map]
  refine List.map_congr_left fun o ho => ?_
  rw [Function.comp_apply, MemoryLedger.markRow]
  by_cases hmem : o ∈ F.tagged ∧ folderOf o.path = folder
  · rw [if_pos ((mem_ids_partition ho).mpr hmem)]
    simp [hmem.1, hmem.2]
  · rw [if_neg fun hid => hmem ((mem_ids_partition ho).mp hid)]
    congr 1
    rw [decide_eq_decide, List.mem_append, List.mem_singleton, and_or_left]
    exact (or_iff_left hmem).symm

end Feed

end StopArrivals
