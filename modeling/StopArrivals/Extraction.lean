import StopArrivals.Event
import StopArrivals.Filter
import StopArrivals.Notice
import StopArrivals.Time.CalendarDay
import StopArrivals.Time.ServiceTime

/-!
# Extraction of candidates

A row describes a trip and lists predictions, one for each stop ahead. A prediction becomes a
candidate when its arrival lies within the horizon after the time of the message. A prediction
that cannot be read is left out by itself; a row whose trip cannot be read fails the whole batch.
-/

namespace StopArrivals

/-! ## Reading single values -/

/-- The integer part of a floating-point number below `2 ^ 63` in size. -/
def truncated? (x : Binary64) : Option Int :=
  let v := x.truncate
  if v.natAbs < 1 <<< 63 then some v else none

/-- Integers, floating-point numbers without their fraction, and decimal text. -/
def integerOf? : Json → Option Int
  | .number n => n.int64?.or (n.toBinary64?.bind truncated?)
  | .text s => readSigned 64 (trimChars s.toList)
  | _ => none

/-- Text that is not blank, and numbers as they are printed. -/
def textOf? : Json → Option String
  | .text s => if isBlankText s then none else some s
  | .number n => some n.text
  | _ => none

/-- Zero or one. -/
def directionOf? (v : Json) : Option Int := (integerOf? v).filter fun d => d == 0 || d == 1

/-- A real day YYYYMMDD, as text or as an integer. -/
def startDateOf? : Json → Option Int
  | .text s => readServiceDate (trimChars s.toList)
  | .number n => n.int64?.bind fun v => readServiceDate (integerChars v)
  | _ => none

/-- A service time, as text. -/
def startTimeOf? : Json → Option Int
  | .text s => readServiceTime s
  | _ => none

/-! ## Reading a row -/

/-- A column of a row; an absent one counts as null. -/
def readColumn {α : Type} (row : Record) (column : String) (read : Json → Option α) :
    Except Fault α :=
  let value := (Json.lookup column row).getD .null
  match read value with
  | some a => .ok a
  | none => .error (.coercion column value.print)

def readTrip (row : Record) : Except Fault Trip := do
  let direction ← readColumn row "direction_id" directionOf?
  let route ← readColumn row "route_id" textOf?
  let startDate ← readColumn row "start_date" startDateOf?
  let startTime ← readColumn row "start_time" startTimeOf?
  let vehicle ← readColumn row "vehicle_id" textOf?
  pure ⟨route, direction, startDate, startTime, vehicle⟩

/-- What became of one prediction. -/
inductive Reading where
  | candidate (c : Candidate)
  | noEstimate
  | outsideHorizon
  | malformed (fault : PredictionFault)
deriving DecidableEq

/-- A member of a prediction that must not be missing. -/
def readMember {α : Type} (prediction : Json) (field : String) (read : Json → Option α) :
    Except PredictionFault α :=
  match prediction.member? field with
  | none | some .null => .error (.missing field)
  | some value =>
    match read value with
    | some a => .ok a
    | none => .error (.notAnInteger field value.print)

/-- The time from the message to the arrival, kept within 64 bits. -/
def leadTime (arrival messageTime : Int) : Int := (IntRange.signed 64).clamp (arrival - messageTime)

/-- The estimated arrival as it stands in a prediction. -/
def estimate? (prediction : Json) : Option Json :=
  match (prediction.member? "arrival").bind (Json.member? "time") with
  | none | some .null => none
  | some time => some time

/-- Stop and sequence of a prediction. -/
def readStop (prediction : Json) : Except PredictionFault (String × Int) := do
  let stop ← readMember prediction "stop_id" textOf?
  let sequence ← readMember prediction "stop_sequence" fun v =>
    (integerOf? v).filter (IntRange.signed 32).contains
  pure (stop, sequence)

def readPrediction (horizon : Int) (trip : Trip) (messageTime : Int) (prediction : Json) :
    Reading :=
  match estimate? prediction with
  | none => .noEstimate
  | some time =>
    match integerOf? time with
    | none => .malformed (.notAnInteger "arrival.time" time.print)
    | some arrival =>
      let lead := leadTime arrival messageTime
      if 0 ≤ lead ∧ lead ≤ horizon then
        match readStop prediction with
        | .ok (stop, sequence) =>
          .candidate ⟨.predicted ⟨trip, stop, sequence⟩ arrival, messageTime⟩
        | .error fault => .malformed fault
      else .outsideHorizon

/-! ## Extracting -/

structure Extraction where
  candidates : List Candidate
  counts : ExtractionCounts

def ExtractionCounts.add (a b : ExtractionCounts) : ExtractionCounts :=
  ⟨a.rows + b.rows, a.predictions + b.predictions, a.candidates + b.candidates,
    a.noEstimate + b.noEstimate, a.outsideHorizon + b.outsideHorizon, a.malformed + b.malformed⟩

namespace Extraction

def empty : Extraction := ⟨[], .none⟩

def append (a b : Extraction) : Extraction :=
  ⟨a.candidates ++ b.candidates, a.counts.add b.counts⟩

/-- What one prediction contributes. -/
def ofReading : Reading → Extraction
  | .candidate c => ⟨[c], { ExtractionCounts.none with predictions := 1, candidates := 1 }⟩
  | .noEstimate => ⟨[], { ExtractionCounts.none with predictions := 1, noEstimate := 1 }⟩
  | .outsideHorizon => ⟨[], { ExtractionCounts.none with predictions := 1, outsideHorizon := 1 }⟩
  | .malformed _ => ⟨[], { ExtractionCounts.none with predictions := 1, malformed := 1 }⟩

def ofReadings (readings : List Reading) : Extraction :=
  readings.foldr (fun r e => (ofReading r).append e) empty

end Extraction

def readingNotice? (trip : Trip) : Reading → Option Notice
  | .malformed fault => some (.skippedPrediction trip.route trip.vehicle fault)
  | _ => none

/-- What one row contributes. A list of predictions that is absent or null is as good as empty;
anything else that is no list is malformed. -/
def extractRow (horizon : Int) (row : Record) : Except Fault (Extraction × List Notice) := do
  let messageTime ← readColumn row "timestamp" integerOf?
  let trip ← readTrip row
  let counted (e : Extraction) : Extraction :=
    { e with counts := { e.counts with rows := e.counts.rows + 1 } }
  match Json.lookup "stop_time_update" row with
  | none | some .null => pure (counted .empty, [])
  | some (.list predictions) =>
    let readings := predictions.map (readPrediction horizon trip messageTime)
    pure (counted (.ofReadings readings), readings.filterMap (readingNotice? trip))
  | some other =>
    pure (counted ⟨[], { ExtractionCounts.none with malformed := 1 }⟩,
      [.skippedRow trip.route trip.vehicle other.print])

/-- The candidates of all rows, up to the first row that cannot be read. -/
def extractRows (horizon : Int) : List Record → Except Fault Extraction × List Notice
  | [] => (.ok .empty, [])
  | row :: rest =>
    match extractRow horizon row with
    | .error fault => (.error fault, [])
    | .ok (first, notices) =>
      let (result, more) := extractRows horizon rest
      (result.map first.append, notices ++ more)

/-- The horizon that holds unless another is set, in seconds. -/
def defaultHorizon : Int := 120

/-- Extract with a horizon in seconds; a negative one counts as zero. -/
def extract (horizon : Int) (rows : List Record) : Except Fault Extraction × List Notice :=
  extractRows (max horizon 0) rows

/-! ## What a batch is asked for -/

/-- The columns that extraction reads. -/
def tripUpdateColumns : List String :=
  ["timestamp", "stop_time_update", "direction_id", "route_id", "start_date", "start_time",
    "vehicle_id"]

/-- Rows that fail one of these tests are not loaded. -/
def tripUpdateFilters : List Filter :=
  [⟨"direction_id", .oneOf [.ofInt 0, .ofInt 1]⟩,
    ⟨"timestamp", .above (.ofInt 0)⟩,
    .present "route_id", .present "start_date", .present "start_time", .present "vehicle_id"]

end StopArrivals
