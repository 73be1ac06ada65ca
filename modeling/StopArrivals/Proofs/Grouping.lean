import Mathlib.Data.List.Nodup
import Mathlib.Data.String.Basic
import StopArrivals.Partition

/-!
# Partitions of a listing

Objects are put into partitions one by one. At every point there is one partition for each folder
seen so far, in ascending order of the folders, and it holds all objects of its folder in the order
in which they came (`mem_groupPartitions`). So a partition never leaves out an object of the listing
that belongs to it, and no object is in two of them.
-/

namespace StopArrivals

def inFolder (folder : String) (objects : List SourceObject) : List SourceObject :=
  objects.filter fun o => folderOf o.path = folder

@[simp] theorem mem_inFolder {folder : String} {objects : List SourceObject} {o : SourceObject} :
    o ∈ inFolder folder objects ↔ o ∈ objects ∧ folderOf o.path = folder := by
  simp [inFolder]

/-- The objects that some partitions hold for a folder. -/
def heldFor (folder : String) : List Partition → List SourceObject
  | [] => []
  | p :: ps => if p.key = folder then p.objects else heldFor folder ps

theorem heldFor_eq_nil {folder : String} {ps : List Partition} (h : ∀ p ∈ ps, p.key ≠ folder) :
    heldFor folder ps = [] := by
  induction ps with
  | nil => rfl
  | cons p ps ih =>
      rw [heldFor, if_neg (h p (List.mem_cons_self ..))]
      exact ih fun q hq => h q (List.mem_cons_of_mem _ hq)

def KeysAscend (ps : List Partition) : Prop := ps.Pairwise fun p q => p.key < q.key

theorem heldFor_key {ps : List Partition} (h : KeysAscend ps) {p : Partition} (hp : p ∈ ps) :
    heldFor p.key ps = p.objects := by
  induction ps with
  | nil => exact absurd hp List.not_mem_nil
  | cons q qs ih =>
      obtain ⟨hfirst, hrest⟩ := List.pairwise_cons.mp h
      rcases List.mem_cons.mp hp with rfl | hp
      · exact if_pos rfl
      · rw [heldFor, if_neg (ne_of_lt (hfirst p hp))]
        exact ih hrest hp

/-! ## One more object -/

/-- A new object comes last in the partition of its folder; the other partitions stay. -/
theorem mem_addObject {o : SourceObject} {ps : List Partition} (h : KeysAscend ps)
    {q : Partition} : q ∈ addObject o ps ↔
      q ∈ ps ∧ q.key ≠ folderOf o.path ∨
        q = ⟨folderOf o.path, heldFor (folderOf o.path) ps ++ [o]⟩ := by
  induction ps with
  | nil => simp [addObject, heldFor]
  | cons p ps ih =>
      obtain ⟨hfirst, hrest⟩ := List.pairwise_cons.mp h
      rw [addObject, heldFor]
      by_cases hkey : p.key = folderOf o.path
      · rw [if_pos hkey, if_pos hkey, ← hkey, List.mem_cons]
        have hother : q ∈ ps → q.key ≠ p.key := fun hq => (ne_of_lt (hfirst q hq)).symm
        constructor
        · rintro (rfl | hq)
          · exact .inr rfl
          · exact .inl ⟨List.mem_cons_of_mem _ hq, hother hq⟩
        · rintro (⟨hq, hne⟩ | rfl)
          · rcases List.mem_cons.mp hq with rfl | hq
            · exact absurd rfl hne
            · exact .inr hq
          · exact .inl rfl
      · rw [if_neg hkey, if_neg hkey]
        by_cases hlt : folderOf o.path < p.key
        · have habove : ∀ q ∈ p :: ps, q.key ≠ folderOf o.path := by
            intro q hq
            rcases List.mem_cons.mp hq with rfl | hq
            · exact hkey
            · exact (ne_of_lt (lt_trans hlt (hfirst q hq))).symm
          rw [if_pos hlt, heldFor_eq_nil fun q hq => habove q (List.mem_cons_of_mem _ hq),
            List.mem_cons, or_comm]
          exact or_congr_left ⟨fun hq => ⟨hq, habove q hq⟩, fun hq => hq.1⟩
        · rw [if_neg hlt, List.mem_cons, ih hrest, ← or_assoc, List.mem_cons, or_and_right]
          refine or_congr_left (or_congr_left ⟨fun hq => ⟨hq, hq ▸ hkey⟩, fun hq => hq.1⟩)

theorem keysAscend_addObject {o : SourceObject} {ps : List Partition} (h : KeysAscend ps) :
    KeysAscend (addObject o ps) := by
  induction ps with
  | nil => exact List.pairwise_singleton _ _
  | cons p ps ih =>
      obtain ⟨hfirst, hrest⟩ := List.pairwise_cons.mp h
      rw [addObject]
      by_cases hkey : p.key = folderOf o.path
      · rw [if_pos hkey]
        exact List.pairwise_cons.mpr ⟨hfirst, hrest⟩
      rw [if_neg hkey]
      by_cases hlt : folderOf o.path < p.key
      · rw [if_pos hlt]
        refine List.pairwise_cons.mpr ⟨fun q hq => ?_, h⟩
        rcases List.mem_cons.mp hq with rfl | hq
        · exact hlt
        · exact lt_trans hlt (hfirst q hq)
      · rw [if_neg hlt]
        refine List.pairwise_cons.mpr ⟨fun q hq => ?_, ih hrest⟩
        rcases (mem_addObject hrest).mp hq with ⟨hq, -⟩ | rfl
        · exact hfirst q hq
        · exact lt_of_le_of_ne (not_lt.mp hlt) hkey

/-! ## All objects -/

/-- One full partition for each folder of the objects. -/
structure Grouped (ps : List Partition) (objects : List SourceObject) : Prop where
  ascending : KeysAscend ps
  full : ∀ p, p ∈ ps ↔ p.objects ≠ [] ∧ p.objects = inFolder p.key objects

theorem Grouped.heldFor_eq {ps : List Partition} {objects : List SourceObject}
    (h : Grouped ps objects) (folder : String) :
    heldFor folder ps = inFolder folder objects := by
  by_cases hsome : ∃ p ∈ ps, p.key = folder
  · obtain ⟨p, hp, rfl⟩ := hsome
    rw [heldFor_key h.ascending hp]
    exact ((h.full p).mp hp).2
  · rw [heldFor_eq_nil fun p hp hkey => hsome ⟨p, hp, hkey⟩]
    by_contra hne
    exact hsome ⟨⟨folder, inFolder folder objects⟩, (h.full _).mpr ⟨Ne.symm hne, rfl⟩, rfl⟩

theorem Grouped.addObject {ps : List Partition} {objects : List SourceObject}
    (h : Grouped ps objects) (o : SourceObject) :
    Grouped (addObject o ps) (objects ++ [o]) := by
  refine ⟨keysAscend_addObject h.ascending, fun p => ?_⟩
  rw [mem_addObject h.ascending, h.heldFor_eq, h.full, inFolder, inFolder, inFolder,
    List.filter_append]
  by_cases hkey : p.key = folderOf o.path
  · rw [List.filter_cons_of_pos (by simp [hkey]), List.filter_nil, ← hkey]
    constructor
    · rintro (⟨-, hne⟩ | hp)
      · exact absurd rfl hne
      · rw [congrArg Partition.objects hp]
        exact ⟨List.append_ne_nil_of_right_ne_nil _ (List.cons_ne_nil _ _), rfl⟩
    · rintro ⟨-, hp⟩
      refine .inr ?_
      rw [← hp]
  · rw [List.filter_cons_of_neg (by simp [Ne.symm hkey]), List.filter_nil, List.append_nil]
    constructor
    · rintro (⟨hp, -⟩ | rfl)
      · exact hp
      · exact absurd rfl hkey
    · exact fun hp => .inl ⟨hp, hkey⟩

theorem grouped_foldl : ∀ {rest : List SourceObject} {ps : List Partition}
    {objects : List SourceObject}, Grouped ps objects →
      Grouped (rest.foldl (fun ps o => addObject o ps) ps) (objects ++ rest)
  | [], ps, objects, h => by rwa [List.append_nil]
  | o :: rest, ps, objects, h => by
      rw [List.foldl_cons, List.append_cons]
      exact grouped_foldl (h.addObject o)

theorem grouped_groupPartitions (objects : List SourceObject) :
    Grouped (groupPartitions objects) objects := by
  have hempty : Grouped [] [] :=
    ⟨List.Pairwise.nil, fun p => ⟨fun hp => absurd hp List.not_mem_nil, fun hp => absurd hp.2 hp.1⟩⟩
  exact grouped_foldl hempty

theorem keysAscend_groupPartitions (objects : List SourceObject) :
    KeysAscend (groupPartitions objects) := (grouped_groupPartitions objects).ascending

/-- The partitions are exactly the folders of the objects, each with everything in it. -/
theorem mem_groupPartitions {objects : List SourceObject} {p : Partition} :
    p ∈ groupPartitions objects ↔ p.objects ≠ [] ∧ p.objects = inFolder p.key objects :=
  (grouped_groupPartitions objects).full p

theorem KeysAscend.nodup_keys {ps : List Partition} (h : KeysAscend ps) :
    (ps.map Partition.key).Nodup :=
  List.nodup_iff_pairwise_ne.mpr (List.pairwise_map.mpr (h.imp fun hlt => ne_of_lt hlt))

theorem nodup_keys_groupPartitions (objects : List SourceObject) :
    ((groupPartitions objects).map Partition.key).Nodup :=
  (keysAscend_groupPartitions objects).nodup_keys

theorem exists_partition {objects : List SourceObject} {o : SourceObject} (ho : o ∈ objects) :
    ⟨folderOf o.path, inFolder (folderOf o.path) objects⟩ ∈ groupPartitions objects :=
  mem_groupPartitions.mpr ⟨List.ne_nil_of_mem (mem_inFolder.mpr ⟨ho, rfl⟩), rfl⟩

/-! ## Part of the folders -/

/-- Partitions in ascending order are determined by which ones there are. -/
theorem KeysAscend.eq_of_mem_iff {ps qs : List Partition} (hps : KeysAscend ps)
    (hqs : KeysAscend qs) (hmem : ∀ p, p ∈ ps ↔ p ∈ qs) : ps = qs := by
  have hperm : ps.Perm qs := (List.perm_ext_iff_of_nodup (List.Nodup.of_map _ hps.nodup_keys)
    (List.Nodup.of_map _ hqs.nodup_keys)).mpr hmem
  exact hperm.eq_of_pairwise
    (fun _ _ _ _ hpq hqp => absurd (lt_trans hpq hqp) (lt_irrefl _)) hps hqs

theorem inFolder_filter (keep : String → Bool) (folder : String) (objects : List SourceObject) :
    inFolder folder (objects.filter fun o => keep (folderOf o.path)) =
      if keep folder then inFolder folder objects else [] := by
  rw [inFolder, List.filter_filter]
  split
  · next hkeep =>
    refine List.filter_congr fun o _ => ?_
    by_cases hfolder : folderOf o.path = folder
    · simp [hfolder, hkeep]
    · simp [hfolder]
  · next hkeep =>
    refine List.filter_eq_nil_iff.mpr fun o _ h => hkeep ?_
    obtain ⟨hfolder, ho⟩ := Bool.and_eq_true_iff.mp h
    exact of_decide_eq_true hfolder ▸ ho

/-- If all objects of some folders are taken away, their partitions are, and no others change. -/
theorem groupPartitions_filter (keep : String → Bool) (objects : List SourceObject) :
    groupPartitions (objects.filter fun o => keep (folderOf o.path)) =
      (groupPartitions objects).filter fun p => keep p.key := by
  refine (keysAscend_groupPartitions _).eq_of_mem_iff
    ((keysAscend_groupPartitions objects).filter _) fun p => ?_
  rw [List.mem_filter, mem_groupPartitions, mem_groupPartitions, inFolder_filter]
  by_cases hkeep : keep p.key = true
  · rw [if_pos hkeep]
    exact (and_iff_left hkeep).symm
  · rw [if_neg hkeep]
    exact ⟨fun h => absurd h.2 h.1, fun h => absurd h.2 hkeep⟩

end StopArrivals
