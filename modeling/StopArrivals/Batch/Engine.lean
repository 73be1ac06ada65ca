import StopArrivals.Batch
import StopArrivals.Batch.Scan
import StopArrivals.Json.Reader

/-!
# Reading batches with a query engine

What an engine does on one connection is given as a value: the rows that it returns and, for each
point, whether it fails there. A batch is read all or nothing, and the failure reported is the
first one: a row is asked for before it is decoded, and decoded before the next is asked for.
-/

namespace StopArrivals

/-- A point at which an engine can fail. Each statement that sets something is a point of its own.
Rows are counted from zero, and the request that finds no more rows counts as well. -/
inductive EnginePoint where
  | opening
  | setting (statement : String)
  | prepare
  | query
  | next (row : Nat)
deriving DecidableEq

/-- How one connection behaves. A row that is not text is absent. -/
structure Connection where
  rows : List (Option String)
  /-- The message with which it fails at a point, if it does. It can fail at several. -/
  failureAt? : EnginePoint → Option String

/-- What was sent over one connection. -/
structure ScanTrace where
  settings : List String
  prepared : List String
deriving DecidableEq

namespace Connection

/-- A connection on which nothing fails. -/
def sound (rows : List (Option String)) : Connection := ⟨rows, fun _ => none⟩

def pass (c : Connection) (point : EnginePoint) : Except Cause Unit :=
  match c.failureAt? point with
  | some message => .error (.plain message)
  | none => .ok ()

/-- How many lists and objects may be open at once in a row. -/
def rowNesting : Nat := 127

/-- A row must be text that holds one JSON object. -/
def decodeRow : Option String → Except Cause Record
  | none => .error (.plain "column 0 is not text")
  | some text =>
    match Json.readObject (some rowNesting) text with
    | .ok members => .ok (Json.canonicalRecord members)
    | .error refusal => .error (.within "decode parquet row" (.plain (refusal.message text)))

/-- Ask for row `k` and those after it, decoding each one as it comes. -/
def fetch (c : Connection) : Nat → List (Option String) → Except Cause (List Record)
  | k, [] => do
    c.pass (.next k)
    pure []
  | k, row :: rest => do
    c.pass (.next k)
    let record ← decodeRow row
    let more ← c.fetch (k + 1) rest
    pure (record :: more)

def settings : List String := ["PRAGMA threads=2", "PRAGMA enable_progress_bar=false"]

/-- Run a query over some files and decode what it returns. The outcome of the settings is not
looked at. -/
def scan (c : Connection) (files : Nat) (sql : String) :
    Except Cause (List Record) × ScanTrace :=
  match c.failureAt? .opening with
  | some message => (.error (.plain message), ⟨[], []⟩)
  | none =>
    let _ := settings.map fun statement => c.pass (.setting statement)
    let result : Except Cause (List Record) :=
      match c.failureAt? .prepare with
      | some message =>
        .error (Cause.within ("scan " ++ naturalText files ++ " parquet file(s)") (.plain message))
      | none => do
        c.pass .query
        c.fetch 0 c.rows
    (result, ⟨settings, [sql]⟩)

end Connection

/-- The connections still to be opened, and what was sent over those that were. -/
structure Engine where
  connections : List Connection
  scans : List ScanTrace

namespace Engine

/-- Open the next connection; one that nothing is said about returns no rows. -/
def connect (e : Engine) : Connection × Engine :=
  match e.connections with
  | [] => (.sound [], e)
  | c :: rest => (c, { e with connections := rest })

/-- Read a batch from the files beneath a root. Without paths, or with a filter that cannot be
written in SQL, the engine is not used. -/
def load (root : String) (paths columns : List String) (filters : List Filter) :
    Step Engine (Except Cause (List Record)) :=
  if paths.isEmpty then pure (.ok [])
  else
    match scanSql (paths.map (resolvePath root)) columns filters with
    | .error cause => pure (.error cause)
    | .ok sql => do
      let connection ← Step.perform connect
      let (result, trace) := connection.scan paths.length sql
      Step.perform fun e => ((), { e with scans := e.scans ++ [trace] })
      match result with
      | .error cause => pure (.error cause)
      | .ok rows =>
        Step.post (.loadedBatch paths.length rows.length)
        pure (.ok rows)

def source (root : String) : BatchSource Engine := ⟨load root⟩

end Engine

end StopArrivals
