import Mathlib.Algebra.Order.BigOperators.Group.List
import StopArrivals.Proofs.Views

/-!
# The transaction of an insert

An insert begins a transaction, inserts its chunks one after the other up to the first that is
refused, and commits (`Server.insertEvents_run`). It succeeds if nothing that it sends fails. The
chunks of its events hold every event once, in order, and within the limits of a statement
(`Server.insert_in_chunks`). The text of a chunk has a place holder for each of its parameters
(`Statement.sql_insertEvents`), and 64 bits are enough to add up what the replies count
(`Server.InsertRun.toNat_inserted`).
-/

namespace StopArrivals

theorem Exchange.isOk_of_served {x : Exchange} (h : x.served = true) : x.reply.isOk := by
  obtain ⟨statement, _ | reply⟩ := x
  · cases h
  · rfl

/-! ## The text of an insert -/

namespace Statement

theorem length_insertEvents (events : List Event) :
    (insertEvents events).parameters.length = 10 * events.length := by
  induction events with
  | nil => rfl
  | cons e events ih =>
    show (rowParameters e ++ (insertEvents events).parameters).length = 10 * (events.length + 1)
    rw [List.length_append, ih, Nat.mul_succ, Nat.add_comm]
    rfl

/-- One row of values, with a place holder for each number. -/
def valueRow (numbers : List Nat) : String :=
  "(" ++ ", ".intercalate (numbers.map fun i => "$" ++ naturalText i) ++ ")"

theorem placeholders_eq (first count : Nat) : placeholders first count =
    (List.range' first count).map fun i => "$" ++ naturalText i := by
  induction count generalizing first with
  | zero => rfl
  | succ count ih => rw [placeholders, ih, List.range'_succ, List.map_cons]

/-- The numbers run on from row to row. -/
theorem exists_valueRows (first : Nat) (events : List Event) : ∃ rows : List (List Nat),
    valueRows first events = rows.map valueRow ∧
      rows.length = events.length ∧ (∀ row ∈ rows, row.length = 10) ∧
      rows.flatten = List.range' first (10 * events.length) := by
  induction events generalizing first with
  | nil => exact ⟨[], rfl, rfl, nofun, rfl⟩
  | cons e events ih =>
    obtain ⟨rows, htext, hlength, hrows, hflatten⟩ := ih (first + 10)
    refine ⟨List.range' first 10 :: rows, ?_, congrArg (· + 1) hlength, ?_, ?_⟩
    · rw [valueRows, placeholders_eq, List.map_cons, ← htext]
      rfl
    · intro row hrow
      rcases List.mem_cons.mp hrow with rfl | hrow
      · exact List.length_range'
      · exact hrows row hrow
    · rw [List.flatten_cons, hflatten, List.length_cons, Nat.mul_succ, Nat.add_comm (10 * _),
        ← List.range'_append_1]

/-- An insert has one row of values for each event and one place holder for each column. All place
holders, row after row, are numbered from one to the number of parameters. -/
theorem sql_insertEvents (events : List Event) : ∃ rows : List (List Nat),
    (insertEvents events).sql = "INSERT INTO trip_update_events (" ++
        ", ".intercalate insertColumns ++ ") VALUES " ++ ", ".intercalate (rows.map valueRow) ∧
      rows.length = events.length ∧ (∀ row ∈ rows, row.length = insertColumns.length) ∧
      rows.flatten = List.range' 1 (insertEvents events).parameters.length := by
  obtain ⟨rows, htext, hlength, hrows, hflatten⟩ := exists_valueRows 1 events
  rw [length_insertEvents]
  refine ⟨rows, ?_, hlength, hrows, hflatten⟩
  rw [← htext]
  rfl

end Statement

/-! ## Runs -/

namespace Server

variable {σ : Type} (S : Server σ)

/-- It succeeds if nothing that is sent fails. -/
theorem InsertRun.isOk_iff {events : List Event} {trace : List Exchange}
    {result : Except Cause Nat} (h : InsertRun events trace result) :
    result.isOk ↔ ∀ x ∈ trace, x.reply.isOk := by
  constructor
  · intro hok x hx
    cases h with
    | notBegun | refused | notCommitted => cases hok
    | committed =>
      simp only [List.mem_cons, List.mem_append, List.not_mem_nil, or_false] at hx
      rcases hx with rfl | hx | rfl
      · rfl
      · exact Exchange.isOk_of_served (served_of_mem_insertsServed hx)
      · rfl
  · intro hall
    cases h with
    | notBegun =>
      have := hall ⟨_, _⟩ (List.mem_singleton_self _)
      cases this
    | refused | notCommitted =>
      have := hall ⟨_, _⟩
        (List.mem_cons_of_mem _ (List.mem_append_right _ (List.mem_cons_self ..)))
      cases this
    | committed => rfl

/-- An insert on any server is one of the runs of `InsertRun` and succeeds if and only if no reply is
an error. Its chunks are as many as are needed, keep within the limits of a statement and bind the
ten columns of every event, in order. -/
theorem insert_in_chunks {events : List Event} (hne : events ≠ []) (s : σ) :
    ∃ trace,
      S.recorded.insertEvents events (s, []) =
        ((S.insertEvents events s).1, (S.insertEvents events s).2, trace) ∧
      InsertRun events trace (S.insertEvents events s).1 ∧
      ((S.insertEvents events s).1.isOk ↔ ∀ x ∈ trace, x.reply.isOk) ∧
      (chunks events).length = (events.length + 3999) / 4000 ∧
      (∀ chunk ∈ chunks events, 1 ≤ chunk.length ∧ chunk.length ≤ 4000 ∧
        (Statement.insertEvents chunk).parameters.length ≤ 40000) ∧
      ((chunks events).flatMap fun chunk => (Statement.insertEvents chunk).parameters) =
        events.flatMap fun e =>
          [.bytes e.fingerprint, .integer e.visit.trip.direction, .text e.visit.trip.route,
            .integer e.visit.trip.startDate, .integer e.visit.trip.startTime,
            .text e.visit.trip.vehicle, .text e.visit.stop, .integer e.visit.sequence,
            .integer e.timestamp, .flag e.moving] := by
  obtain ⟨trace, htrace, hrun⟩ := S.insertEvents_run hne (s, [])
  obtain ⟨hresult, hstate⟩ := Prod.mk.injEq .. |>.mp (S.seen_insertEvents events (s, []))
  rw [hresult] at hrun
  refine ⟨trace, Prod.ext hresult (Prod.ext hstate htrace), hrun, hrun.isOk_iff,
    length_chunks events, fun chunk hchunk => ?_, ?_⟩
  · have hlength : 1 ≤ chunk.length ∧ chunk.length ≤ 4000 := length_of_mem_chunks hchunk
    rw [Statement.length_insertEvents]
    omega
  · conv_rhs => rw [← flatten_chunks events, List.flatten_eq_flatMap, List.flatMap_assoc]
    rfl

/-- Of two chunks the second one is refused. -/
theorem insert_in_chunks_of_refused_second :
    let event : Event := .predicted ⟨⟨"Red", 0, 20230508, 27000, "R-547A"⟩, "70061", 1⟩ 1683549000
    let events := List.replicate 4001 event
    let script : Script := ⟨[.ok ⟨[], 4000⟩, .error "duplicate key"], none, none, []⟩
    events ≠ [] ∧ ∃ trace,
      Script.server.recorded.insertEvents events (script, []) =
        (.error ((serverCause "duplicate key").within "insert trip_update_events"),
          ⟨[], none, none, [.beginTransaction, .insertEvents (List.replicate 4000 event),
            .insertEvents [event], .rollback]⟩, trace) ∧
      InsertRun events trace
        (.error ((serverCause "duplicate key").within "insert trip_update_events")) := by
  intro event events script
  have hne : events ≠ [] := List.cons_ne_nil event (List.replicate 4000 event)
  have hchunks : chunks events = [List.replicate 4000 event, [event]] := by
    have hcut : events = List.replicate 4000 event ++ [event] := List.replicate_succ'
    have hfull : (List.replicate 4000 event).length = chunkRows := List.length_replicate
    rw [hcut, chunks_append hfull, chunks, List.take_nil, List.drop_nil, chunks]
  have hresult : Script.server.insertEvents events script =
      (.error ((serverCause "duplicate key").within "insert trip_update_events"),
        ⟨[], none, none, [.beginTransaction, .insertEvents (List.replicate 4000 event),
          .insertEvents [event], .rollback]⟩) := by
    rw [insertEvents, if_neg (by simpa using hne), hchunks]
    rfl
  obtain ⟨trace, htrace, hrun, -⟩ := Script.server.insert_in_chunks hne script
  rw [hresult] at htrace hrun
  exact ⟨hne, trace, htrace, hrun⟩

end Server

/-! ## Counts in 64 bits -/

/-- The number that comes back for an insert that was served. -/
def Exchange.inserted? : Exchange → Option Nat
  | ⟨.insertEvents _, .ok reply⟩ => some reply.affected
  | _ => none

theorem foldl_add_ofNat (counts : List Nat) (total : UInt64) :
    counts.foldl (fun total count => total + UInt64.ofNat count) total =
      total + UInt64.ofNat counts.sum := by
  induction counts generalizing total with
  | nil => exact (UInt64.add_zero _).symm
  | cons count counts ih =>
    rw [List.foldl_cons, ih, List.sum_cons, UInt64.ofNat_add, UInt64.add_assoc]

namespace Server.InsertRun

variable {events : List Event} {trace : List Exchange} {count : Nat}
  (h : InsertRun events trace (.ok count))

include h

theorem sum_inserted : (trace.filterMap Exchange.inserted?).sum = count := by
  cases h with
  | @committed begun committed done hchunks =>
    have hdone : (insertsServed done).filterMap Exchange.inserted? =
        done.map (·.2.affected) := by
      rw [insertsServed, List.filterMap_map, ← List.filterMap_eq_map]
      rfl
    rw [List.filterMap_cons_none rfl, List.filterMap_append, hdone,
      List.filterMap_cons_none rfl, List.filterMap_nil, List.append_nil]

section

variable (hreplies : ∀ chunk reply,
  ⟨.insertEvents chunk, .ok reply⟩ ∈ trace → reply.affected ≤ chunk.length)

include hreplies

theorem le_length : count ≤ events.length := by
  cases h with
  | @committed begun committed done hchunks =>
    have hdone : ∀ x ∈ done, x.2.affected ≤ x.1.length := fun x hx =>
      hreplies x.1 x.2 (List.mem_cons_of_mem _ (List.mem_append_left _
        (List.mem_map_of_mem hx)))
    calc (done.map (·.2.affected)).sum
      _ ≤ (done.map (·.1.length)).sum := List.sum_le_sum hdone
      _ = ((chunks events).map List.length).sum := by rw [hchunks, List.map_map]; rfl
      _ = events.length := by rw [← List.length_flatten, flatten_chunks]

/-- As long as no reply counts more rows than were sent, 64 bits are enough to add them up. -/
theorem toNat_inserted (hlength : events.length < 2 ^ 64) :
    ((trace.filterMap Exchange.inserted?).foldl
      (fun total count => total + UInt64.ofNat count) 0).toNat = count := by
  have hcount : count < UInt64.size := Nat.lt_of_le_of_lt (h.le_length hreplies) hlength
  rw [foldl_add_ofNat, h.sum_inserted, UInt64.zero_add, UInt64.toNat_ofNat_of_lt' hcount]

end

end Server.InsertRun

end StopArrivals
