import Mathlib.Data.List.Induction
import Mathlib.Data.List.Sort
import StopArrivals.JobLog

/-!
# What a job log tells of its metadata

A log is called to add metadata and to tell where its job stands, in any order. What it tells is
determined by the additions made so far, and an addition only matters by the first time that its key
was added and by the last value that the key was given: the entries of a log are an ordered map of
the additions (`gathered_callAll`). One more addition keeps them so (`Gathered.put`), and there is
no other such map (`Gathered.eq_of_alike`).
-/

namespace StopArrivals

namespace JobLog

/-! ## Calls -/

inductive Call where
  | add (key value : String)
  | tell (status : JobStatus)
deriving DecidableEq

def tell (log : JobLog) : JobStatus → Notice
  | .started => log.started
  | .complete => log.complete
  | .failed kind error => log.failed kind error

def call (log : JobLog) : Call → JobLog × List Notice
  | .add key value => log.add key value
  | .tell status => (log, [log.tell status])

def callAll (log : JobLog) : List Call → JobLog × List Notice
  | [] => (log, [])
  | c :: cs =>
    let (log, notices) := log.call c
    let (log, more) := log.callAll cs
    (log, notices ++ more)

theorem callAll_append (log : JobLog) (past : List Call) (c : Call) :
    log.callAll (past ++ [c]) = (((log.callAll past).1.call c).1,
      (log.callAll past).2 ++ ((log.callAll past).1.call c).2) := by
  induction past generalizing log with
  | nil => simp [callAll]
  | cons c' past ih => simp only [List.cons_append, callAll, ih, List.append_assoc]

/-- Adding several entries is adding one after the other. -/
theorem addAll_eq_callAll (log : JobLog) (entries : List (String × String)) :
    log.addAll entries = log.callAll (entries.map fun (key, value) => .add key value) := by
  induction entries generalizing log with
  | nil => rfl
  | cons entry entries ih => simp only [addAll, List.map_cons, callAll, call, ih]

/-! ## Additions -/

/-- What a call adds, unless the key belongs to the log. -/
def Call.addition? : Call → Option (String × String)
  | add key value => if key ∈ protectedKeys then none else some (key, value)
  | tell _ => none

def additions (calls : List Call) : List (String × String) := calls.filterMap Call.addition?

/-- A key was added for the first time before another one was. -/
def AddedBefore (adds : List (String × String)) (k l : String) : Prop :=
  (adds.map Prod.fst).idxOf k < (adds.map Prod.fst).idxOf l

instance (adds : List (String × String)) (k l : String) : Decidable (AddedBefore adds k l) :=
  inferInstanceAs (Decidable (_ < _))

theorem addedBefore_append {adds : List (String × String)} {k l : String}
    (hk : k ∈ adds.map Prod.fst) (hl : l ∈ adds.map Prod.fst) (more : List (String × String)) :
    AddedBefore (adds ++ more) k l ↔ AddedBefore adds k l := by
  rw [AddedBefore, List.map_append, List.idxOf_append_of_mem hk, List.idxOf_append_of_mem hl,
    AddedBefore]

theorem addedBefore_new {adds : List (String × String)} {k key : String}
    (hk : k ∈ adds.map Prod.fst) (hkey : key ∉ adds.map Prod.fst) (value : String) :
    AddedBefore (adds ++ [(key, value)]) k key := by
  rw [AddedBefore, List.map_append, List.idxOf_append_of_mem hk, List.idxOf_append_of_notMem hkey]
  exact Nat.lt_add_right _ (List.idxOf_lt_length_of_mem hk)

def latest? (adds : List (String × String)) (key : String) : Option String :=
  adds.reverse.lookup key

theorem latest?_append (adds : List (String × String)) (key value k : String) :
    latest? (adds ++ [(key, value)]) k = if k = key then some value else latest? adds k := by
  rw [latest?, List.reverse_append, List.reverse_singleton, List.singleton_append,
    List.lookup_cons]
  by_cases hkey : k = key
  · rw [beq_iff_eq.mpr hkey, if_pos hkey]
  · rw [beq_eq_false_iff_ne.mpr hkey, if_neg hkey, latest?]

theorem exists_latest {adds : List (String × String)} {key : String} :
    (∃ value, latest? adds key = some value) ↔ key ∈ adds.map Prod.fst := by
  induction adds using List.reverseRecOn with
  | nil => simp [latest?]
  | append_singleton adds last ih =>
    obtain ⟨k, v⟩ := last
    rw [latest?_append, List.map_append, List.mem_append, ← ih]
    by_cases hkey : key = k
    · simp [hkey]
    · simp [hkey]

/-! ## One more addition -/

/-- The ordered map of some additions: every added key once, in the order in which they were first
added, with its latest value. -/
structure Gathered (adds entries : List (String × String)) : Prop where
  once : (entries.map Prod.fst).Nodup
  ordered : (entries.map Prod.fst).Pairwise (AddedBefore adds)
  latest : ∀ key value, (key, value) ∈ entries ↔ latest? adds key = some value

theorem gathered_nil : Gathered [] [] where
  once := .nil
  ordered := .nil
  latest _ _ := by simp [latest?]

theorem Gathered.mem_keys {adds entries : List (String × String)} (h : Gathered adds entries)
    {key : String} : key ∈ entries.map Prod.fst ↔ key ∈ adds.map Prod.fst := by
  refine Iff.trans ?_ exists_latest
  rw [List.mem_map]
  constructor
  · rintro ⟨⟨k, value⟩, hentry, rfl⟩
    exact ⟨value, (h.latest k value).mp hentry⟩
  · rintro ⟨value, hvalue⟩
    exact ⟨(key, value), (h.latest key value).mpr hvalue, rfl⟩

theorem keys_put (key value : String) (entries : List (String × String)) :
    (put key value entries).map Prod.fst = if key ∈ entries.map Prod.fst
      then entries.map Prod.fst else entries.map Prod.fst ++ [key] := by
  induction entries with
  | nil => rfl
  | cons entry entries ih =>
    obtain ⟨k, v⟩ := entry
    by_cases hkey : k = key
    · simp [put, hkey]
    · simp only [put, hkey, Ne.symm hkey, if_false, List.map_cons, List.mem_cons, false_or, ih]
      split <;> rfl

theorem mem_put {key value k v : String} {entries : List (String × String)}
    (h : (entries.map Prod.fst).Nodup) :
    (k, v) ∈ put key value entries ↔ if k = key then v = value else (k, v) ∈ entries := by
  induction entries with
  | nil => by_cases hk : k = key <;> simp [put, hk]
  | cons entry entries ih =>
    obtain ⟨k', v'⟩ := entry
    obtain ⟨hfirst, hrest⟩ := List.nodup_cons.mp h
    by_cases hkey : k' = key
    · subst hkey
      have hother (v : String) : (k', v) ∉ entries := fun hentry =>
        hfirst (List.mem_map.mpr ⟨_, hentry, rfl⟩)
      by_cases hk : k = k'
      · subst hk
        simp [put, hother]
      · simp [put, hk]
    · rw [put, if_neg hkey, List.mem_cons, ih hrest, List.mem_cons]
      by_cases hk : k = key
      · simp [hk, Ne.symm hkey]
      · simp [hk]

theorem Gathered.put {adds entries : List (String × String)} (h : Gathered adds entries)
    (key value : String) : Gathered (adds ++ [(key, value)]) (put key value entries) := by
  -- What was added before keeps its place among the additions, whether or not the key is new.
  have hold : (entries.map Prod.fst).Pairwise (AddedBefore (adds ++ [(key, value)])) :=
    h.ordered.imp_of_mem fun hk hl =>
      (addedBefore_append (h.mem_keys.mp hk) (h.mem_keys.mp hl) _).mpr
  have hordered : ((JobLog.put key value entries).map Prod.fst).Pairwise
      (AddedBefore (adds ++ [(key, value)])) := by
    rw [keys_put]
    split
    · exact hold
    · next hnew =>
      refine List.pairwise_append.mpr ⟨hold, List.pairwise_singleton _ key, fun k hk l hl => ?_⟩
      obtain rfl := List.mem_singleton.mp hl
      exact addedBefore_new (h.mem_keys.mp hk) (fun hl => hnew (h.mem_keys.mpr hl)) value
  refine ⟨hordered.imp fun hkl => ?_, hordered, fun k v => ?_⟩
  · rintro rfl
    exact lt_irrefl _ hkl
  · rw [mem_put h.once, latest?_append, h.latest]
    split
    · rw [Option.some.injEq, eq_comm]
    · rfl

/-! ## No other map -/

/-- Additions with the same keys in the order of their first additions, and the same latest
values. -/
structure Alike (adds adds' : List (String × String)) : Prop where
  order : ∀ k ∈ adds.map Prod.fst, ∀ l ∈ adds.map Prod.fst,
    AddedBefore adds k l ↔ AddedBefore adds' k l
  latest : ∀ key, latest? adds key = latest? adds' key

theorem Alike.refl (adds : List (String × String)) : Alike adds adds :=
  ⟨fun _ _ _ _ => .rfl, fun _ => rfl⟩

theorem Gathered.eq_of_alike {adds adds' entries entries' : List (String × String)}
    (h : Gathered adds entries) (h' : Gathered adds' entries') (halike : Alike adds adds') :
    entries = entries' := by
  have hmem (entry : String × String) : entry ∈ entries ↔ entry ∈ entries' := by
    rw [h.latest, h'.latest, halike.latest]
  have hordered : (entries.map Prod.fst).Pairwise (AddedBefore adds') :=
    h.ordered.imp_of_mem fun hk hl =>
      (halike.order _ (h.mem_keys.mp hk) _ (h.mem_keys.mp hl)).mp
  have hirrefl : Std.Irrefl fun p q : String × String => AddedBefore adds' p.1 q.1 :=
    ⟨fun _ => lt_irrefl _⟩
  have hasymm : Std.Antisymm fun p q : String × String => AddedBefore adds' p.1 q.1 :=
    ⟨fun _ _ hpq hqp => absurd hpq (lt_asymm hqp)⟩
  exact (List.pairwise_map.mp hordered).eq_of_mem_iff (List.pairwise_map.mp h'.ordered) hmem

/-! ## All calls -/

theorem name_call (log : JobLog) (c : Call) : (log.call c).1.name = log.name := by
  cases c with
  | add key value =>
    rw [call, add]
    split <;> rfl
  | tell status => rfl

theorem name_callAll (name : String) (calls : List Call) :
    ((new name).callAll calls).1.name = name := by
  induction calls using List.reverseRecOn with
  | nil => rfl
  | append_singleton past c ih => rw [callAll_append, name_call, ih]

theorem gathered_callAll (name : String) (calls : List Call) :
    Gathered (additions calls) ((new name).callAll calls).1.metadata := by
  induction calls using List.reverseRecOn with
  | nil => exact gathered_nil
  | append_singleton past c ih =>
    rw [callAll_append, additions, List.filterMap_append]
    cases c with
    | add key value =>
      rw [call, add]
      by_cases hkey : key ∈ protectedKeys
      · have hnone : (Call.add key value).addition? = none := if_pos hkey
        rw [if_pos hkey, List.filterMap_cons_none hnone, List.filterMap_nil, List.append_nil]
        exact ih
      · have hsome : (Call.add key value).addition? = some (key, value) := if_neg hkey
        rw [if_neg hkey, List.filterMap_cons_some hsome, List.filterMap_nil]
        exact ih.put key value
    | tell status =>
      rw [List.filterMap_cons_none rfl, List.filterMap_nil, List.append_nil]
      exact ih

/-- What a log gathers from several entries at once, as the log of a partition does. -/
theorem gathered_addAll (name : String) (entries : List (String × String)) :
    Gathered (entries.filter fun entry => entry.1 ∉ protectedKeys)
      ((new name).addAll entries).1.metadata := by
  have hadditions : additions (entries.map fun (key, value) => .add key value) =
      entries.filter fun entry => entry.1 ∉ protectedKeys := by
    rw [additions, List.filterMap_map, ← List.filterMap_eq_filter]
    refine List.filterMap_congr fun entry _ => ?_
    by_cases hkey : entry.1 ∈ protectedKeys <;> simp [Call.addition?, Option.guard, hkey]
  rw [addAll_eq_callAll, ← hadditions]
  exact gathered_callAll name _

/-! ## What is told -/

/-- Some entries as a log words them. -/
def listing : List (String × String) → String
  | [] => ""
  | [(key, value)] => key ++ "=" ++ value
  | (key, value) :: entry :: entries => key ++ "=" ++ value ++ ", " ++ listing (entry :: entries)

theorem metadataText_eq (log : JobLog) : log.metadataText = listing log.metadata := by
  rw [metadataText]
  induction log.metadata with
  | nil => rfl
  | cons entry entries ih =>
    cases entries with
    | nil => rfl
    | cons entry' entries =>
      rw [List.map_cons, List.map_cons, String.intercalate_cons_cons]
      exact congrArg _ ih

theorem tell_eq (log : JobLog) (status : JobStatus) :
    log.tell status = .job log.name status (listing log.metadata) := by
  rw [← metadataText_eq]
  cases status <;> rfl

/-- The notices that some calls bring. Whenever the log tells where its job stands, it lists the
entries gathered so far. -/
inductive Tells (name : String) : List Call → List Notice → Prop
  | nothing : Tells name [] []
  | added {past : List Call} {notices : List Notice} (h : Tells name past notices)
    {key : String} (value : String) (hkey : key ∉ protectedKeys) :
    Tells name (past ++ [.add key value]) notices
  | ignored {past : List Call} {notices : List Notice} (h : Tells name past notices)
    {key : String} (value : String) (hkey : key ∈ protectedKeys) :
    Tells name (past ++ [.add key value]) (notices ++ [.ignoredMetadata key name])
  | told {past : List Call} {notices : List Notice} (h : Tells name past notices)
    (status : JobStatus) {entries : List (String × String)}
    (hentries : Gathered (additions past) entries) :
    Tells name (past ++ [.tell status]) (notices ++ [.job name status (listing entries)])

theorem tells_callAll (name : String) (calls : List Call) :
    Tells name calls ((new name).callAll calls).2 := by
  -- From the right: what a call brings depends on the calls before it.
  induction calls using List.reverseRecOn with
  | nil => exact .nothing
  | append_singleton past c ih =>
    rw [callAll_append]
    cases c with
    | add key value =>
      rw [call, add, name_callAll]
      by_cases hkey : key ∈ protectedKeys
      · rw [if_pos hkey]
        exact .ignored ih value hkey
      · rw [if_neg hkey, List.append_nil]
        exact .added ih value hkey
    | tell status =>
      rw [call, tell_eq, name_callAll]
      exact .told ih status (gathered_callAll name past)

theorem Tells.eq {name : String} {calls : List Call} {notices : List Notice}
    (h : Tells name calls notices) : ((new name).callAll calls).2 = notices := by
  induction h with
  | nothing => rfl
  | added h value hkey ih =>
    rw [callAll_append, call, add, if_neg hkey, List.append_nil, ih]
  | ignored h value hkey ih =>
    rw [callAll_append, call, add, if_pos hkey, name_callAll, ih]
  | told h status hentries ih =>
    rw [callAll_append, call, tell_eq, name_callAll, ih,
      (gathered_callAll name _).eq_of_alike hentries (.refl _)]

/-- The metadata is an ordered map in which the last value of a key counts. The notices are those
that the entries gathered at each point make; an addition to a key of the log is noticed and changes
nothing, and telling changes nothing. Logs with additions that are alike word them alike. -/
theorem metadata_last_value_counts (name : String) :
    (∀ calls notices, ((new name).callAll calls).2 = notices ↔ Tells name calls notices) ∧
    (∀ calls, Gathered (additions calls) ((new name).callAll calls).1.metadata) ∧
    (∀ (log : JobLog) (value : String), ∀ key ∈ protectedKeys,
      log.add key value = (log, [.ignoredMetadata key log.name]) ∧
        (Notice.ignoredMetadata key log.name).level = .debug) ∧
    (∀ (log : JobLog) (status : JobStatus), (log.call (.tell status)).1 = log) ∧
    ∀ name' calls calls', Alike (additions calls) (additions calls') →
      ((new name).callAll calls).1.metadataText = ((new name').callAll calls').1.metadataText := by
  refine ⟨fun calls notices => ⟨?_, Tells.eq⟩, gathered_callAll name, fun log value key hkey => ?_,
    fun _ _ => rfl, fun name' calls calls' halike => ?_⟩
  · rintro rfl
    exact tells_callAll name calls
  · exact ⟨if_pos hkey, rfl⟩
  · rw [metadataText_eq, metadataText_eq,
      (gathered_callAll name calls).eq_of_alike (gathered_callAll name' calls') halike]

/-- A key keeps its place when it is added again, and a key of the log never gets one. -/
theorem metadata_last_value_counts_of_key_added_again :
    let again : List Call := [.add "partition" "a", .add "objects" "3", .tell .started,
      .add "status" "done", .add "partition" "b"]
    let once : List Call := [.add "partition" "b", .add "objects" "3"]
    "status" ∈ protectedKeys ∧ Alike (additions again) (additions once) ∧
      ((new "merge").callAll again).1.metadataText = ((new "cycle").callAll once).1.metadataText ∧
      ((new "cycle").callAll once).1.metadataText = "partition=b, objects=3" := by
  intro again once
  have halike : Alike (additions again) (additions once) := by
    have hagain : additions again = [("partition", "a"), ("objects", "3"), ("partition", "b")] := by
      decide
    have honce : additions once = [("partition", "b"), ("objects", "3")] := by decide
    rw [hagain, honce]
    refine ⟨by decide, fun key => ?_⟩
    by_cases hkey : key = "partition"
    · subst hkey
      rfl
    · simp [latest?, List.lookup_cons, beq_eq_false_iff_ne.mpr hkey]
  exact ⟨by decide, halike, (metadata_last_value_counts "merge").2.2.2.2 "cycle" again once halike,
    by decide⟩

end JobLog

end StopArrivals
