import StopArrivals.Event

/-!
# Database statements

The statements that are sent to the database, as values. Their SQL text and their parameters are
functions of the value; in the text the parameters are numbered from one.
-/

namespace StopArrivals

/-- What is created when the schema is missing. -/
inductive SchemaObject where
  | eventTable
  | ledgerTable
  | ledgerIndex
deriving DecidableEq

inductive Statement where
  | create (object : SchemaObject)
  | listObjects (tag : String)
  | markObjects (ids : List Int)
  | selectEvents (fingerprints : List Fingerprint)
  | updateEvents (updates : List TimestampUpdate)
  | deleteEvents (ids : List Int)
  | insertEvents (events : List Event)
  | beginTransaction
  | commit
  | rollback
deriving DecidableEq

/-- A value bound to a statement. -/
inductive Parameter where
  | integer (value : Int)
  | text (value : String)
  | flag (value : Bool)
  | bytes (value : Fingerprint)
  | integers (values : List Int)
  | byteStrings (values : List Fingerprint)
deriving DecidableEq

namespace Statement

def createSql : SchemaObject → String
  | .eventTable => "CREATE TABLE IF NOT EXISTS trip_update_events ( " ++
    "pk_id BIGSERIAL PRIMARY KEY, " ++
    "hash BYTEA NOT NULL UNIQUE, " ++
    "direction_id SMALLINT NOT NULL, " ++
    "route_id VARCHAR(60) NOT NULL, " ++
    "start_date INTEGER NOT NULL, " ++
    "start_time INTEGER NOT NULL, " ++
    "vehicle_id VARCHAR(60) NOT NULL, " ++
    "stop_id VARCHAR(60) NOT NULL, " ++
    "stop_sequence INTEGER NOT NULL, " ++
    "timestamp_start BIGINT NOT NULL, " ++
    "is_moving BOOLEAN NOT NULL DEFAULT false, " ++
    "updated_on TIMESTAMPTZ NOT NULL DEFAULT now() )"
  | .ledgerTable => "CREATE TABLE IF NOT EXISTS metadata_log ( " ++
    "pk_id BIGSERIAL PRIMARY KEY, " ++
    "processed BOOLEAN NOT NULL DEFAULT false, " ++
    "process_fail BOOLEAN NOT NULL DEFAULT false, " ++
    "path VARCHAR(256) NOT NULL UNIQUE, " ++
    "created_on TIMESTAMPTZ NOT NULL DEFAULT now() )"
  | .ledgerIndex => "CREATE INDEX IF NOT EXISTS metadata_log_unprocessed_idx " ++
    "ON metadata_log (pk_id) WHERE processed = false"

/-- The columns of the event table in the order in which an insert binds them. -/
def insertColumns : List String :=
  ["hash", "direction_id", "route_id", "start_date", "start_time", "vehicle_id", "stop_id",
    "stop_sequence", "timestamp_start", "is_moving"]

/-- The place holders of `count` parameters, numbered on from `first`. -/
def placeholders (first : Nat) : Nat → List String
  | 0 => []
  | count + 1 => ("$" ++ naturalText first) :: placeholders (first + 1) count

/-- The place holders of one row after the other, ten each. -/
def valueRows (first : Nat) : List Event → List String
  | [] => []
  | _ :: rest =>
    ("(" ++ ", ".intercalate (placeholders first insertColumns.length) ++ ")") ::
      valueRows (first + insertColumns.length) rest

def sql : Statement → String
  | create object => createSql object
  | listObjects _ => "SELECT pk_id, path FROM metadata_log WHERE processed = false " ++
    "AND strpos(path, $1) > 0 ORDER BY pk_id"
  | markObjects _ => "UPDATE metadata_log SET processed = true WHERE pk_id = ANY($1)"
  | selectEvents _ => "SELECT pk_id, hash, direction_id, route_id, start_date, start_time, " ++
    "vehicle_id, stop_id, stop_sequence, timestamp_start, is_moving FROM trip_update_events " ++
    "WHERE hash = ANY($1)"
  | updateEvents _ => "UPDATE trip_update_events AS e SET timestamp_start = u.timestamp_start, " ++
    "updated_on = NOW() FROM UNNEST($1::bigint[], $2::bigint[]) AS u(pk_id, timestamp_start) " ++
    "WHERE e.pk_id = u.pk_id"
  | deleteEvents _ => "DELETE FROM trip_update_events WHERE pk_id = ANY($1)"
  | insertEvents events => "INSERT INTO trip_update_events (" ++
    ", ".intercalate insertColumns ++ ") VALUES " ++ ", ".intercalate (valueRows 1 events)
  | beginTransaction => "BEGIN"
  | commit => "COMMIT"
  | rollback => "ROLLBACK"

/-- The parameters of one inserted row. -/
def rowParameters (e : Event) : List Parameter :=
  [.bytes e.fingerprint, .integer e.visit.trip.direction, .text e.visit.trip.route,
    .integer e.visit.trip.startDate, .integer e.visit.trip.startTime, .text e.visit.trip.vehicle,
    .text e.visit.stop, .integer e.visit.sequence, .integer e.timestamp, .flag e.moving]

def parameters : Statement → List Parameter
  | create _ => []
  | listObjects tag => [.text tag]
  | markObjects ids => [.integers ids]
  | selectEvents fingerprints => [.byteStrings fingerprints]
  | updateEvents updates =>
    [.integers (updates.map TimestampUpdate.id), .integers (updates.map TimestampUpdate.timestamp)]
  | deleteEvents ids => [.integers ids]
  | insertEvents events => events.flatMap rowParameters
  | beginTransaction | commit | rollback => []

end Statement

end StopArrivals
