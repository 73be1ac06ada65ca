import StopArrivals.Database.Server
import StopArrivals.Ledger

/-!
# The ledger and the event table in a database

Both are kept in tables, and every operation is one statement, but for an insert: it sends its
events in chunks within one transaction. Operations on nothing send nothing.
-/

namespace StopArrivals

variable {ω : Type}

/-! ## Sending statements -/

/-- The server's own words are reported twice, once with their origin. -/
def serverCause (text : String) : Cause :=
  Cause.within ("error returned from database: " ++ text) (.plain text)

namespace Server

/-- Send a statement; its failure is reported as it is. -/
def send (S : Server ω) (statement : Statement) : Call ω Reply := fun w =>
  match S.exchange statement w with
  | (.ok reply, w) => (.ok reply, w)
  | (.error text, w) => (.error (serverCause text), w)

/-- Send a statement as part of an undertaking, and read the reply. -/
def ask {α : Type} (S : Server ω) (undertaking : String) (statement : Statement)
    (read : Reply → Except Cause α) : Call ω α := fun w =>
  match S.send statement w with
  | (.ok reply, w) => (read reply, w)
  | (.error cause, w) => (.error (cause.within undertaking), w)

/-- Send a statement that changes rows, and answer how many it changed. -/
def change (S : Server ω) (undertaking : String) (statement : Statement) : Call ω Nat :=
  S.ask undertaking statement fun reply => .ok reply.affected

/-! ## The ledger -/

def listObjects (S : Server ω) (tag : String) : Call ω (List SourceObject) :=
  S.ask "list unprocessed metadata_log rows" (.listObjects tag) fun reply =>
    .ok (reply.rows.map fun row => ⟨row.id, row.path⟩)

def markObjects (S : Server ω) (ids : List Int) : Call ω Nat :=
  if ids.isEmpty then fun w => (.ok 0, w)
  else S.change "mark metadata_log rows processed" (.markObjects ids)

def ledger (S : Server ω) : SourceLedger ω := ⟨S.listObjects, S.markObjects⟩

/-! ## The event table -/

/-- A row of the event table. -/
def storedEvent (row : Row) : Except Cause StoredEvent :=
  match Fingerprint.ofBytes? row.hash with
  | some fingerprint => .ok ⟨row.id, ⟨fingerprint, row.visit, row.timestamp, row.moving⟩⟩
  | none => .error (.plain ("stored hash has " ++ naturalText row.hash.length ++ " bytes"))

def selectEvents (S : Server ω) (fingerprints : List Fingerprint) : Call ω (List StoredEvent) :=
  if fingerprints.isEmpty then fun w => (.ok [], w)
  else S.ask "select trip_update_events by hash" (.selectEvents fingerprints) fun reply =>
    reply.rows.mapM storedEvent

def updateEvents (S : Server ω) (updates : List TimestampUpdate) : Call ω Nat :=
  if updates.isEmpty then fun w => (.ok 0, w)
  else S.change "update trip_update_events timestamps" (.updateEvents updates)

def deleteEvents (S : Server ω) (ids : List Int) : Call ω Nat :=
  if ids.isEmpty then fun w => (.ok 0, w)
  else S.change "delete superseded trip_update_events" (.deleteEvents ids)

/-- The most rows that one insert may hold: a statement takes at most 65535 parameters. -/
def chunkRows : Nat := 4000

/-- Cut events into chunks of `chunkRows`, the last one perhaps smaller. -/
def chunks : List Event → List (List Event)
  | [] => []
  | e :: es => (e :: es.take (chunkRows - 1)) :: chunks (es.drop (chunkRows - 1))
termination_by events => events.length
decreasing_by simp only [List.length_drop, List.length_cons]; omega

theorem flatten_chunks (events : List Event) : (chunks events).flatten = events := by
  induction events using chunks.induct with
  | case1 => rw [chunks, List.flatten_nil]
  | case2 e es ih => rw [chunks, List.flatten_cons, ih, List.cons_append, List.take_append_drop]

/-- A full chunk is cut off in front. -/
theorem chunks_append {chunk : List Event} (h : chunk.length = chunkRows) (rest : List Event) :
    chunks (chunk ++ rest) = chunk :: chunks rest := by
  obtain ⟨e, es, rfl⟩ := List.exists_cons_of_length_pos (l := chunk) (by rw [h]; decide)
  have hes : chunkRows - 1 = es.length := by rw [← h, List.length_cons, Nat.add_sub_cancel]
  rw [List.cons_append, chunks, hes, List.take_left, List.drop_left]

theorem length_chunks (events : List Event) :
    (chunks events).length = (events.length + (chunkRows - 1)) / chunkRows := by
  induction events using chunks.induct with
  | case1 => rw [chunks]; rfl
  | case2 e es ih =>
    rw [chunks, List.length_cons, ih]
    simp only [List.length_drop, List.length_cons, chunkRows]
    omega

theorem length_of_mem_chunks {events chunk : List Event} (h : chunk ∈ chunks events) :
    1 ≤ chunk.length ∧ chunk.length ≤ chunkRows := by
  induction events using chunks.induct with
  | case1 =>
    rw [chunks] at h
    exact absurd h List.not_mem_nil
  | case2 e es ih =>
    rw [chunks, List.mem_cons] at h
    rcases h with rfl | h
    · simp only [List.length_cons, List.length_take, chunkRows]
      omega
    · exact ih h

/-- Insert chunk after chunk, up to the first failure, and add up the rows. -/
def insertChunks (S : Server ω) : List (List Event) → Call ω Nat
  | [] => fun w => (.ok 0, w)
  | chunk :: rest => fun w =>
    match S.change "insert trip_update_events" (.insertEvents chunk) w with
    | (.error cause, w) => (.error cause, w)
    | (.ok rows, w) =>
      match S.insertChunks rest w with
      | (.error cause, w) => (.error cause, w)
      | (.ok more, w) => (.ok (rows + more), w)

/-- Give up a transaction: whatever the server says to it, the failure stands. -/
def abandon (S : Server ω) (cause : Cause) : Call ω Nat := fun w =>
  (.error cause, (S.exchange .rollback w).2)

/-- Insert all chunks in one transaction, which is rolled back when a chunk or the commit fails. -/
def insertEvents (S : Server ω) (events : List Event) : Call ω Nat :=
  if events.isEmpty then fun w => (.ok 0, w)
  else fun w =>
    match S.send .beginTransaction w with
    | (.error cause, w) => (.error cause, w)
    | (.ok _, w) =>
      match S.insertChunks (chunks events) w with
      | (.error cause, w) => S.abandon cause w
      | (.ok rows, w) =>
        match S.send .commit w with
        | (.error cause, w) => S.abandon cause w
        | (.ok _, w) => (.ok rows, w)

def eventStore (S : Server ω) : EventStore ω :=
  ⟨S.selectEvents, S.updateEvents, S.deleteEvents, S.insertEvents⟩

/-! ## The schema -/

/-- Create what is missing, up to the first failure. -/
def createAll (S : Server ω) : List SchemaObject → Call ω Unit
  | [] => fun w => (.ok (), w)
  | object :: rest => fun w =>
    match S.change "bootstrap trip-update-events schema" (.create object) w with
    | (.error cause, w) => (.error cause, w)
    | (.ok _, w) => S.createAll rest w

def ensureSchema (S : Server ω) : Step ω (Except Cause Unit) := do
  match ← Step.perform (S.createAll [.eventTable, .ledgerTable, .ledgerIndex]) with
  | .error cause => pure (.error cause)
  | .ok () =>
    Step.post .schemaReady
    pure (.ok ())

end Server

end StopArrivals
