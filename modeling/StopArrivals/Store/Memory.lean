import StopArrivals.Store

/-!
# An event store in memory

The rows are kept in ascending order of their ids, and the store remembers the last id it gave
out, so a new row always gets an id greater than any before. Both facts are part of the type. As
in the table that it stands for, no insert may repeat a fingerprint.
-/

namespace StopArrivals

structure MemoryStore where
  rows : List StoredEvent
  lastId : Int
  /-- The group of statements whose next call fails. -/
  failNext : Option StatementGroup
  ascending : rows.Pairwise (fun a b => a.id < b.id)
  id_le_lastId : ∀ r ∈ rows, r.id ≤ lastId

namespace MemoryStore

/-! ## Numbering -/

/-- Give consecutive ids, the first one greater by one than `last`. -/
def numbered (last : Int) : List Event → List StoredEvent
  | [] => []
  | e :: es => ⟨last + 1, e⟩ :: numbered (last + 1) es

theorem id_of_mem_numbered {last : Int} {events : List Event} {r : StoredEvent}
    (h : r ∈ numbered last events) : last < r.id ∧ r.id ≤ last + events.length := by
  induction events generalizing last with
  | nil => simp [numbered] at h
  | cons e es ih =>
    rcases List.mem_cons.mp h with rfl | h
    · simp only [List.length_cons]; omega
    · have := ih h
      simp only [List.length_cons]; omega

theorem numbered_ascending (last : Int) (events : List Event) :
    (numbered last events).Pairwise (fun a b => a.id < b.id) := by
  induction events generalizing last with
  | nil => exact List.Pairwise.nil
  | cons e es ih => exact List.Pairwise.cons (fun r hr => (id_of_mem_numbered hr).1) (ih _)

/-! ## Stores -/

/-- A store that holds the events under the ids 1, 2 and so on. -/
def ofEvents (events : List Event) : MemoryStore where
  rows := numbered 0 events
  lastId := events.length
  failNext := none
  ascending := numbered_ascending 0 events
  id_le_lastId := fun r hr => by
    have := (id_of_mem_numbered hr).2
    omega

/-- Make the next call of the group fail. -/
def failOnce (group : StatementGroup) (s : MemoryStore) : MemoryStore :=
  { s with failNext := some group }

/-- The events without their ids, in the order of their fingerprints. -/
def snapshot (s : MemoryStore) : List Event :=
  (s.rows.map StoredEvent.event).mergeSort fun a b => a.fingerprint ≤ b.fingerprint

/-! ## Operations -/

/-- A call of the group: if it is the one that must fail, it does so and nothing else happens. -/
def guarded {α : Type} (group : StatementGroup) (call : Call MemoryStore α) :
    Call MemoryStore α := fun s =>
  if s.failNext = some group then
    (.error (.plain ("injected " ++ group.name ++ " failure")), { s with failNext := none })
  else call s

def select (fingerprints : List Fingerprint) : Call MemoryStore (List StoredEvent) :=
  guarded .select fun s => (.ok (s.rows.filter (·.event.fingerprint ∈ fingerprints)), s)

/-- Set the timestamp of the row with the id. -/
def setTimestamp (u : TimestampUpdate) (rows : List StoredEvent) : List StoredEvent :=
  rows.map fun r => if r.id = u.id then { r with event.timestamp := u.timestamp } else r

theorem setTimestamp_ids (u : TimestampUpdate) (rows : List StoredEvent) :
    (setTimestamp u rows).map StoredEvent.id = rows.map StoredEvent.id := by
  rw [setTimestamp, List.map_map]
  refine List.map_congr_left fun r _ => ?_
  simp only [Function.comp]
  split <;> rfl

def setTimestamps (updates : List TimestampUpdate) (rows : List StoredEvent) : List StoredEvent :=
  updates.foldl (fun rows u => setTimestamp u rows) rows

theorem setTimestamps_ids (updates : List TimestampUpdate) (rows : List StoredEvent) :
    (setTimestamps updates rows).map StoredEvent.id = rows.map StoredEvent.id := by
  induction updates generalizing rows with
  | nil => rfl
  | cons u us ih =>
    rw [setTimestamps, List.foldl_cons, ← setTimestamps, ih, setTimestamp_ids]

theorem ascending_iff_ids {rows : List StoredEvent} :
    rows.Pairwise (fun a b => a.id < b.id) ↔ (rows.map StoredEvent.id).Pairwise (· < ·) :=
  List.pairwise_map.symm

theorem ids_le_iff {rows : List StoredEvent} {last : Int} :
    (∀ r ∈ rows, r.id ≤ last) ↔ ∀ i ∈ rows.map StoredEvent.id, i ≤ last := by
  simp

/-- Set timestamps one after the other; an id that is not there is passed over. -/
def update (updates : List TimestampUpdate) : Call MemoryStore Nat :=
  guarded .update fun s =>
    (.ok (updates.filter fun u => u.id ∈ s.rows.map StoredEvent.id).length,
      { s with
        rows := setTimestamps updates s.rows
        ascending := by
          rw [ascending_iff_ids, setTimestamps_ids]
          exact ascending_iff_ids.mp s.ascending
        id_le_lastId := by
          rw [ids_le_iff, setTimestamps_ids]
          exact ids_le_iff.mp s.id_le_lastId })

/-- Delete rows; an id that is not there, or not any more, is passed over. -/
def delete (ids : List Int) : Call MemoryStore Nat :=
  guarded .delete fun s =>
    let kept := s.rows.filter fun r => r.id ∉ ids
    (.ok (s.rows.length - kept.length),
      { s with
        rows := kept
        ascending := s.ascending.filter _
        id_le_lastId := fun r hr => s.id_le_lastId r (List.mem_filter.mp hr).1 })

/-- The first fingerprint that was seen before. -/
def firstRepeated (seen : List Fingerprint) : List Event → Option Fingerprint
  | [] => none
  | e :: es =>
    if e.fingerprint ∈ seen then some e.fingerprint
    else firstRepeated (e.fingerprint :: seen) es

/-- Take events in under fresh ids. -/
def append (s : MemoryStore) (events : List Event) : MemoryStore where
  rows := s.rows ++ numbered s.lastId events
  lastId := s.lastId + events.length
  failNext := s.failNext
  ascending := List.pairwise_append.mpr
    ⟨s.ascending, numbered_ascending _ _, fun a ha b hb =>
      Int.lt_of_le_of_lt (s.id_le_lastId a ha) (id_of_mem_numbered hb).1⟩
  id_le_lastId := fun r hr => by
    rcases List.mem_append.mp hr with h | h
    · have := s.id_le_lastId r h
      omega
    · exact (id_of_mem_numbered h).2

/-- Insert all events, or none if a fingerprint would occur twice. -/
def insert (events : List Event) : Call MemoryStore Nat :=
  guarded .insert fun s =>
    match firstRepeated (s.rows.map (·.event.fingerprint)) events with
    | some f =>
      (.error (.plain ("duplicate key value violates unique constraint on hash " ++ f.hex)), s)
    | none => (.ok events.length, s.append events)

def store : EventStore MemoryStore := ⟨select, update, delete, insert⟩

end MemoryStore

end StopArrivals
