import StopArrivals.Batch.Memory
import StopArrivals.Proofs.Coercions
import StopArrivals.Proofs.EachMember
import StopArrivals.Proofs.Effects
import StopArrivals.Proofs.LatestCandidates

/-!
# Where candidates come from

An extraction fails with the first column that cannot be read, of the first row that has one
(`errorOf?_extractRows`), and otherwise goes through the rows and their predictions in order
(`candidates_eq`). So every candidate is foretold by one prediction of one row
(`mem_candidates_iff`): its trip is that of the row, and its stop and its estimate are those of the
prediction. What is true of single values is true of candidates: their events are coherent
(`Foretold.coherent`), and in the rows of a loaded file no estimate lies beyond the horizon
(`Foretold.lead`). The events of a partition inherit all of it
(`MemoryBatches.supplies_of_prepared`).
-/

namespace StopArrivals

/-! ## Columns -/

/-- The value of a column; an absent one counts as null. -/
def columnOf (column : String) (row : Record) : Json := (Json.lookup column row).getD .null

section

variable {row : Record} {column : String}

theorem readColumn_eq_ok_iff {α : Type} {read : Json → Option α} {a : α} :
    readColumn row column read = .ok a ↔ read (columnOf column row) = some a := by
  unfold readColumn columnOf
  dsimp only
  cases read ((Json.lookup column row).getD .null) with
  | none => simp
  | some b => simp

/-- What the columns of a trip are read as. -/
structure TripColumns (row : Record) (trip : Trip) : Prop where
  route : textOf? (columnOf "route_id" row) = some trip.route
  direction : directionOf? (columnOf "direction_id" row) = some trip.direction
  startDate : startDateOf? (columnOf "start_date" row) = some trip.startDate
  startTime : startTimeOf? (columnOf "start_time" row) = some trip.startTime
  vehicle : textOf? (columnOf "vehicle_id" row) = some trip.vehicle

theorem columns_of_readTrip {trip : Trip} (h : readTrip row = .ok trip) : TripColumns row trip := by
  unfold readTrip at h
  obtain ⟨direction, hdirection, h⟩ := exists_of_bind_eq_ok h
  obtain ⟨route, hroute, h⟩ := exists_of_bind_eq_ok h
  obtain ⟨startDate, hdate, h⟩ := exists_of_bind_eq_ok h
  obtain ⟨startTime, htime, h⟩ := exists_of_bind_eq_ok h
  obtain ⟨vehicle, hvehicle, h⟩ := exists_of_bind_eq_ok h
  obtain rfl := Except.ok.inj h
  exact ⟨readColumn_eq_ok_iff.mp hroute, readColumn_eq_ok_iff.mp hdirection,
    readColumn_eq_ok_iff.mp hdate, readColumn_eq_ok_iff.mp htime, readColumn_eq_ok_iff.mp hvehicle⟩

theorem readTrip_of_columns {trip : Trip} (h : TripColumns row trip) : readTrip row = .ok trip := by
  unfold readTrip
  rw [readColumn_eq_ok_iff.mpr h.direction, readColumn_eq_ok_iff.mpr h.route,
    readColumn_eq_ok_iff.mpr h.startDate, readColumn_eq_ok_iff.mpr h.startTime,
    readColumn_eq_ok_iff.mpr h.vehicle]
  rfl

end

/-! ## Predictions -/

/-- No reader reads null, so a member that is null is as good as missing. -/
theorem readMember_eq_ok_iff {α : Type} {prediction : Json} {field : String}
    {read : Json → Option α} (hnull : read .null = none) {a : α} :
    readMember prediction field read = .ok a ↔ (prediction.member? field).bind read = some a := by
  unfold readMember
  split
  · next hmember => simp [hmember]
  · next hmember => simp [hmember, hnull]
  · next value _ hmember =>
    rw [hmember, Option.bind_some]
    cases read value <;> simp

theorem readStop_eq_ok_iff {prediction : Json} {stop : String} {sequence : Int} :
    readStop prediction = .ok (stop, sequence) ↔
      (prediction.member? "stop_id").bind textOf? = some stop ∧
        (prediction.member? "stop_sequence").bind integerOf? = some sequence ∧
          (IntRange.signed 32).contains sequence = true := by
  have hstop : ∀ {s : String}, readMember prediction "stop_id" textOf? = .ok s ↔
      (prediction.member? "stop_id").bind textOf? = some s := readMember_eq_ok_iff rfl
  have hsequence : ∀ {v : Int}, readMember prediction "stop_sequence" (fun value =>
      (integerOf? value).filter (IntRange.signed 32).contains) = .ok v ↔
        (prediction.member? "stop_sequence").bind integerOf? = some v ∧
          (IntRange.signed 32).contains v = true := by
    intro v
    rw [readMember_eq_ok_iff rfl]
    simp only [Option.bind_eq_some_iff, Option.filter_eq_some_iff, exists_and_right, ← and_assoc]
  unfold readStop
  constructor
  · intro h
    obtain ⟨s, hs, h⟩ := exists_of_bind_eq_ok h
    obtain ⟨v, hv, h⟩ := exists_of_bind_eq_ok h
    obtain ⟨rfl, rfl⟩ := Prod.mk.inj (Except.ok.inj h)
    exact ⟨hstop.mp hs, hsequence.mp hv⟩
  · rintro ⟨hs, hv⟩
    rw [hstop.mpr hs, hsequence.mpr hv]
    rfl

theorem readPrediction_eq_candidate_iff {horizon messageTime : Int} {trip : Trip}
    {prediction : Json} {c : Candidate} :
    readPrediction horizon trip messageTime prediction = .candidate c ↔
      ∃ time arrival stop sequence, estimate? prediction = some time ∧
        integerOf? time = some arrival ∧
        (0 ≤ leadTime arrival messageTime ∧ leadTime arrival messageTime ≤ horizon) ∧
        readStop prediction = .ok (stop, sequence) ∧
        c = ⟨.predicted ⟨trip, stop, sequence⟩ arrival, messageTime⟩ := by
  unfold readPrediction
  constructor
  · intro h
    split at h
    · cases h
    · next time htime =>
      split at h
      · cases h
      · next arrival harrival =>
        dsimp only at h
        split at h
        · next hlead =>
          split at h
          · next stop sequence hstop =>
            exact ⟨time, arrival, stop, sequence, htime, harrival, hlead, hstop,
              (Reading.candidate.inj h).symm⟩
          · cases h
        · cases h
  · rintro ⟨time, arrival, stop, sequence, htime, harrival, hlead, hstop, rfl⟩
    simp only [htime, harrival, hstop]
    rw [if_pos hlead]

/-- The bounds of 64 bits, in the open. -/
theorem leadTime_eq (arrival messageTime : Int) : leadTime arrival messageTime =
    max (-9223372036854775808) (min (arrival - messageTime) 9223372036854775807) := rfl

/-! ## Rows -/

/-- A prediction of a row foretells a candidate. -/
structure Foretold (horizon : Int) (row : Record) (prediction : Json) (c : Candidate) : Prop where
  message : readColumn row "timestamp" integerOf? = .ok c.messageTime
  trip : readTrip row = .ok c.event.visit.trip
  listed : ∃ predictions, Json.lookup "stop_time_update" row = some (.list predictions) ∧
    prediction ∈ predictions
  reading : readPrediction (max horizon 0) c.event.visit.trip c.messageTime prediction =
    .candidate c

/-- The predictions that a row lists; without a list there are none. -/
def predictionsOf (row : Record) : List Json :=
  match Json.lookup "stop_time_update" row with
  | some (.list predictions) => predictions
  | _ => []

def Reading.candidate? : Reading → Option Candidate
  | .candidate c => some c
  | _ => none

/-- The candidate that a prediction of a row becomes, if it becomes one. -/
def foretold? (horizon : Int) (row : Record) (prediction : Json) : Option Candidate := do
  let messageTime ← (readColumn row "timestamp" integerOf?).toOption
  let trip ← (readTrip row).toOption
  (readPrediction (max horizon 0) trip messageTime prediction).candidate?

section

variable {horizon : Int} {row : Record} {rows : List Record} {extraction : Extraction}
  {prediction : Json} {c : Candidate}

theorem mem_predictionsOf : prediction ∈ predictionsOf row ↔ ∃ predictions,
    Json.lookup "stop_time_update" row = some (.list predictions) ∧ prediction ∈ predictions := by
  unfold predictionsOf
  split
  · next hlookup => simp [hlookup]
  · next hlist =>
    refine iff_of_false List.not_mem_nil ?_
    rintro ⟨predictions, hlookup, -⟩
    exact hlist predictions hlookup

theorem Reading.candidate?_eq_some_iff {reading : Reading} :
    reading.candidate? = some c ↔ reading = .candidate c := by
  cases reading <;> simp [Reading.candidate?]

theorem foretold?_eq_some_iff : foretold? horizon row prediction = some c ↔
    readColumn row "timestamp" integerOf? = .ok c.messageTime ∧
      readTrip row = .ok c.event.visit.trip ∧
      readPrediction (max horizon 0) c.event.visit.trip c.messageTime prediction =
        .candidate c := by
  have hok : ∀ {α : Type} {x : Except Fault α} {a : α}, x.toOption = some a ↔ x = .ok a := by
    intro α x a
    cases x <;> simp [Except.toOption]
  simp only [foretold?, Option.bind_eq_bind, Option.bind_eq_some_iff, hok,
    Reading.candidate?_eq_some_iff]
  constructor
  · rintro ⟨messageTime, hmessage, trip, htrip, hreading⟩
    obtain ⟨_, _, _, _, -, -, -, -, rfl⟩ := readPrediction_eq_candidate_iff.mp hreading
    exact ⟨hmessage, htrip, hreading⟩
  · rintro ⟨hmessage, htrip, hreading⟩
    exact ⟨_, hmessage, _, htrip, hreading⟩

theorem foretold_iff : Foretold horizon row prediction c ↔
    prediction ∈ predictionsOf row ∧ foretold? horizon row prediction = some c := by
  rw [mem_predictionsOf, foretold?_eq_some_iff]
  constructor
  · intro h
    exact ⟨h.listed, h.message, h.trip, h.reading⟩
  · rintro ⟨hlisted, hmessage, htrip, hreading⟩
    exact ⟨hmessage, htrip, hlisted, hreading⟩

theorem candidates_ofReadings (readings : List Reading) :
    (Extraction.ofReadings readings).candidates = readings.filterMap Reading.candidate? := by
  induction readings with
  | nil => rfl
  | cons reading readings ih =>
    have hcons : (Extraction.ofReadings (reading :: readings)).candidates =
        (Extraction.ofReading reading).candidates ++
          (Extraction.ofReadings readings).candidates := rfl
    rw [hcons, ih]
    cases reading <;> rfl

theorem candidates_of_row {notices : List Notice}
    (h : extractRow (max horizon 0) row = .ok (extraction, notices)) :
    extraction.candidates = (predictionsOf row).filterMap (foretold? horizon row) := by
  unfold extractRow at h
  obtain ⟨messageTime, hmessage, h⟩ := exists_of_bind_eq_ok h
  obtain ⟨trip, htrip, h⟩ := exists_of_bind_eq_ok h
  have hforetold : foretold? horizon row = fun prediction =>
      (readPrediction (max horizon 0) trip messageTime prediction).candidate? := by
    funext prediction
    rw [foretold?, hmessage, htrip]
    rfl
  unfold predictionsOf
  dsimp only at h
  split at h
  · next hlookup =>
    obtain ⟨rfl, -⟩ := Prod.mk.inj (Except.ok.inj h)
    rw [hlookup]
    rfl
  · next hlookup =>
    obtain ⟨rfl, -⟩ := Prod.mk.inj (Except.ok.inj h)
    rw [hlookup]
    rfl
  · next predictions hlookup =>
    obtain ⟨rfl, -⟩ := Prod.mk.inj (Except.ok.inj h)
    rw [hlookup, hforetold]
    exact (candidates_ofReadings _).trans List.filterMap_map
  · next hlist hlookup =>
    obtain ⟨rfl, -⟩ := Prod.mk.inj (Except.ok.inj h)
    split
    · next predictions hlookup' =>
      exact absurd (Option.some.inj (hlookup.symm.trans hlookup')) (hlist predictions)
    · rfl

/-- The candidates stand in the order of the rows and of their predictions. -/
theorem candidates_eq (h : (extract horizon rows).1 = .ok extraction) : extraction.candidates =
    rows.flatMap fun row => (predictionsOf row).filterMap (foretold? horizon row) := by
  unfold extract at h
  induction rows generalizing extraction with
  | nil =>
    obtain rfl := Except.ok.inj h
    rfl
  | cons row rows ih =>
    unfold extractRows at h
    split at h
    · cases h
    · next first notices hfirst =>
      dsimp only at h
      obtain ⟨others, hothers, rfl⟩ := exists_of_map_eq_ok h
      rw [List.flatMap_cons, ← candidates_of_row hfirst, ← ih hothers]
      rfl

/-- The candidates are those that a prediction of a row foretells. -/
theorem mem_candidates_iff (h : (extract horizon rows).1 = .ok extraction) :
    c ∈ extraction.candidates ↔ ∃ row ∈ rows, ∃ prediction, Foretold horizon row prediction c := by
  simp only [candidates_eq h, List.mem_flatMap, List.mem_filterMap, foretold_iff]

/-! ## Faults -/

/-- A column that every row has to have, and which values of it can be read. -/
structure RequiredColumn where
  name : String
  reads : Json → Bool

def RequiredColumn.fault? (column : RequiredColumn) (row : Record) : Option Fault :=
  if column.reads (columnOf column.name row) then none
  else some (.coercion column.name (columnOf column.name row).print)

/-- The columns of a trip, in the order in which they are read. -/
def tripColumns : List RequiredColumn :=
  [⟨"direction_id", fun value => (directionOf? value).isSome⟩,
    ⟨"route_id", fun value => (textOf? value).isSome⟩,
    ⟨"start_date", fun value => (startDateOf? value).isSome⟩,
    ⟨"start_time", fun value => (startTimeOf? value).isSome⟩,
    ⟨"vehicle_id", fun value => (textOf? value).isSome⟩]

def requiredColumns : List RequiredColumn :=
  ⟨"timestamp", fun value => (integerOf? value).isSome⟩ :: tripColumns

/-- The fault of the first column that cannot be read. -/
def rowFault? (row : Record) : Option Fault := requiredColumns.findSome? (·.fault? row)

theorem errorOf?_readColumn {α : Type} (row : Record) (column : String)
    (read : Json → Option α) : errorOf? (readColumn row column read) =
      RequiredColumn.fault? ⟨column, fun value => (read value).isSome⟩ row := by
  unfold readColumn RequiredColumn.fault? columnOf
  dsimp only
  split
  · next hread => exact (if_pos (Option.isSome_of_eq_some hread)).symm
  · next hread => exact (if_neg (Option.not_isSome_iff_eq_none.mpr hread)).symm

theorem errorOf?_readTrip : errorOf? (readTrip row) = tripColumns.findSome? (·.fault? row) := by
  simp only [tripColumns, findSome?_cons_or, ← errorOf?_readColumn]
  unfold readTrip
  exact errorOf?_bind fun _ _ => errorOf?_bind fun _ _ => errorOf?_bind fun _ _ =>
    errorOf?_bind fun _ _ => errorOf?_bind fun _ _ => rfl

theorem errorOf?_extractRow : errorOf? (extractRow horizon row) = rowFault? row := by
  rw [rowFault?, requiredColumns, findSome?_cons_or, ← errorOf?_readColumn, ← errorOf?_readTrip,
    ← Option.or_none (o := errorOf? (readTrip row))]
  unfold extractRow
  refine errorOf?_bind fun _ _ => errorOf?_bind fun _ _ => ?_
  dsimp only
  split <;> rfl

/-- The first row that cannot be read decides. -/
theorem errorOf?_extractRows :
    errorOf? (extractRows horizon rows).1 = rows.findSome? rowFault? := by
  induction rows with
  | nil => rfl
  | cons row rows ih =>
    have hrow : errorOf? (extractRow horizon row) = rowFault? row := errorOf?_extractRow
    rw [findSome?_cons_or, ← hrow, ← ih, extractRows]
    cases extractRow horizon row with
    | error fault => rfl
    | ok first => exact errorOf?_map

theorem kind_of_extractRows {fault : Fault} (h : (extractRows horizon rows).1 = .error fault) :
    fault.kind = "type_coercion" := by
  rw [← errorOf?_eq_some_iff, errorOf?_extractRows] at h
  obtain ⟨row, -, h⟩ := List.exists_of_findSome?_eq_some h
  obtain ⟨column, -, h⟩ := List.exists_of_findSome?_eq_some h
  unfold RequiredColumn.fault? at h
  split at h
  · cases h
  · obtain rfl := Option.some.inj h
    rfl

theorem exists_of_prepared_eq_ok {loaded : Except Cause (List Record)} {events : List Event}
    (h : prepared horizon loaded = .ok events) : ∃ rows extraction, loaded = .ok rows ∧
      (extract horizon rows).1 = .ok extraction ∧ events = latestEvents extraction.candidates := by
  cases loaded with
  | error cause => cases h
  | ok rows =>
    obtain ⟨extraction, hextract, rfl⟩ := exists_of_map_eq_ok h
    exact ⟨rows, extraction, rfl, hextract, rfl⟩

/-- Where there is nothing to merge, the files cannot be loaded or a row cannot be read. -/
theorem kind_of_prepared {loaded : Except Cause (List Record)} {fault : Fault}
    (h : prepared horizon loaded = .error fault) :
    fault.kind = "load" ∨ fault.kind = "type_coercion" := by
  cases loaded with
  | error cause =>
    obtain rfl := Except.error.inj h
    exact .inl rfl
  | ok rows =>
    change (extractRows (max horizon 0) rows).1.map _ = _ at h
    cases hrows : (extractRows (max horizon 0) rows).1 with
    | error cause =>
      rw [hrows] at h
      obtain rfl := Except.error.inj h
      exact .inr (kind_of_extractRows hrows)
    | ok extraction =>
      rw [hrows] at h
      cases h

end

/-! ## Coherent events -/

/-- What is true of every event that was read from a row. -/
structure Event.Coherent (e : Event) : Prop where
  fingerprint : e.fingerprint = e.visit.fingerprint
  still : e.moving = false
  direction : e.visit.trip.direction = 0 ∨ e.visit.trip.direction = 1
  startDate : ∃ d : CalendarDay, d.isReal = true ∧ 0 ≤ d.year ∧ d.year ≤ 9999 ∧
    d.number = e.visit.trip.startDate
  startTime : 0 ≤ e.visit.trip.startTime
  route : isBlankText e.visit.trip.route = false
  vehicle : isBlankText e.visit.trip.vehicle = false
  stop : isBlankText e.visit.stop = false

/-- The timestamp has no part in it. -/
theorem Event.Coherent.redated {e : Event} (h : e.Coherent) (timestamp : Int) :
    Event.Coherent { e with timestamp } :=
  ⟨h.fingerprint, h.still, h.direction, h.startDate, h.startTime, h.route, h.vehicle, h.stop⟩

namespace Foretold

variable {horizon : Int} {row : Record} {prediction : Json} {c : Candidate}

theorem stop (h : Foretold horizon row prediction c) : ∃ value,
    prediction.member? "stop_id" = some value ∧ textOf? value = some c.event.visit.stop := by
  obtain ⟨_, _, _, _, -, -, -, hstop, hc⟩ := readPrediction_eq_candidate_iff.mp h.reading
  rw [hc]
  exact Option.bind_eq_some_iff.mp (readStop_eq_ok_iff.mp hstop).1

theorem coherent (h : Foretold horizon row prediction c) : c.event.Coherent := by
  have htrip := columns_of_readTrip h.trip
  obtain ⟨value, -, hstop⟩ := h.stop
  obtain ⟨_, _, _, _, -, -, -, -, hc⟩ := readPrediction_eq_candidate_iff.mp h.reading
  exact
    { fingerprint := by rw [hc]; rfl
      still := by rw [hc]; rfl
      direction := zero_or_one_of_directionOf? htrip.direction
      startDate := exists_day_of_startDateOf? htrip.startDate
      startTime := nonneg_of_startTimeOf? htrip.startTime
      route := not_blank_of_textOf? htrip.route
      vehicle := not_blank_of_textOf? htrip.vehicle
      stop := not_blank_of_textOf? hstop }

/-- With a message that is not from before 1970, the bounds of 64 bits make no difference. -/
theorem lead (h : Foretold horizon row prediction c) (hmessage : 0 ≤ c.messageTime) :
    c.messageTime ≤ c.event.timestamp ∧ c.event.timestamp ≤ c.messageTime + max horizon 0 := by
  obtain ⟨time, arrival, _, _, -, harrival, hlead, -, hc⟩ :=
    readPrediction_eq_candidate_iff.mp h.reading
  have htimestamp : c.event.timestamp = arrival := by rw [hc]; rfl
  have hbits := IntRange.contains_signed64.mp (contains_of_integerOf? harrival)
  rw [leadTime_eq] at hlead
  rw [htimestamp]
  omega

end Foretold

/-! ## A message for examples -/

def messageWith (direction : Int) (predictions : List Json) : Record :=
  [("timestamp", .number (.integer 1000)), ("direction_id", .number (.integer direction)),
    ("route_id", .text "Red"), ("start_date", .text "20230508"), ("start_time", .text "07:30:00"),
    ("vehicle_id", .text "R-547A"), ("stop_time_update", .list predictions)]

def predictionAt (stop : String) (arrival : Int) : Json :=
  .object [("arrival", .object [("time", .number (.integer arrival))]), ("stop_id", .text stop),
    ("stop_sequence", .number (.integer 1))]

/-! ## Loaded files -/

theorem lookup_project {columns : List String} {column : String} (hcolumn : column ∈ columns)
    (row : Record) :
    Json.lookup column (MemoryBatches.project columns row) = Json.lookup column row := by
  have hsome : ¬columns.isEmpty = true := by
    rw [List.isEmpty_iff]
    rintro rfl
    exact List.not_mem_nil hcolumn
  unfold MemoryBatches.project
  rw [if_neg hsome]
  induction row with
  | nil => rfl
  | cons m row ih =>
    obtain ⟨key, value⟩ := m
    rw [Json.lookup, List.filter_cons]
    by_cases hkey : key = column
    · rw [if_pos (decide_eq_true (hkey ▸ hcolumn)), Json.lookup, if_pos hkey, if_pos hkey]
    · rw [if_neg hkey]
      split
      · rw [Json.lookup, if_neg hkey, ih]
      · exact ih

/-- Extraction reads no column that is not loaded. -/
theorem Foretold.of_project {horizon : Int} {row : Record} {prediction : Json} {c : Candidate}
    (h : Foretold horizon (MemoryBatches.project tripUpdateColumns row) prediction c) :
    Foretold horizon row prediction c := by
  have hcolumn : ∀ {α : Type} {read : Json → Option α} {column : String},
      column ∈ tripUpdateColumns →
      readColumn (MemoryBatches.project tripUpdateColumns row) column read =
        readColumn row column read := by
    intro α read column hmem
    unfold readColumn
    rw [lookup_project hmem]
  have htrip : readTrip (MemoryBatches.project tripUpdateColumns row) = readTrip row := by
    unfold readTrip
    rw [hcolumn (by decide), hcolumn (by decide), hcolumn (by decide), hcolumn (by decide),
      hcolumn (by decide)]
  have hlisted : "stop_time_update" ∈ tripUpdateColumns := by decide
  have htimestamp : "timestamp" ∈ tripUpdateColumns := by decide
  exact
    { message := hcolumn htimestamp ▸ h.message
      trip := htrip ▸ h.trip
      listed := lookup_project hlisted row ▸ h.listed
      reading := h.reading }

/-- The truncation of a number above zero. -/
theorem nonneg_truncate {x : Binary64} (h : x.compare (.zero false) = .gt) : 0 ≤ x.truncate := by
  have hzero : ∀ e, (Binary64.zero false).inUnits e = 0 := by
    intro e
    unfold Binary64.inUnits Binary64.zero
    dsimp only
    rw [Nat.zero_shiftLeft]
    rfl
  have hpositive : ¬x.negative = true := by
    intro hnegative
    have hlt := Int.compare_eq_gt.mp h
    rw [hzero] at hlt
    have hle : x.inUnits (min x.exponent (Binary64.zero false).exponent) ≤ 0 := by
      unfold Binary64.inUnits
      dsimp only
      rw [if_pos hnegative]
      exact Int.neg_nonpos_of_nonneg (Int.natCast_nonneg _)
    omega
  unfold Binary64.truncate
  dsimp only
  rw [if_neg hpositive]
  exact Int.natCast_nonneg _

theorem nonneg_of_above_zero {value : Json} {v : Int}
    (habove : Filter.compareValues value (.ofInt 0) = some .gt) (h : integerOf? value = some v) :
    0 ≤ v := by
  cases value with
  | number n =>
    change n.compare? (.integer 0) = some .gt at habove
    change n.int64?.or (n.toBinary64?.bind truncated?) = some v at h
    have hzero : (Number.integer 0).int64? = some 0 := rfl
    unfold Number.compare? at habove
    rw [hzero] at habove
    cases hint : n.int64? with
    | some i =>
      rw [hint] at habove h
      obtain rfl := Option.some.inj h
      have hgt := Option.some.inj habove
      exact Int.le_of_lt (Int.compare_eq_gt.mp hgt)
    | none =>
      rw [hint] at habove h
      obtain ⟨x, hx, hv⟩ := Option.bind_eq_some_iff.mp h
      rw [hx] at habove
      have hcompare : x.compare (.zero false) = .gt := Option.some.inj habove
      unfold truncated? at hv
      dsimp only at hv
      split at hv
      · obtain rfl := Option.some.inj hv
        exact nonneg_truncate hcompare
      · cases hv
  | null | bool | text | list | object => cases habove

/-- A loaded row has a message that is not from before 1970. -/
theorem nonneg_of_kept {row : Record} {v : Int}
    (hkept : MemoryBatches.keepsRow tripUpdateFilters row = true)
    (h : readColumn row "timestamp" integerOf? = .ok v) : 0 ≤ v := by
  have hfilter : Filter.keeps ⟨"timestamp", .above (.ofInt 0)⟩ row = true :=
    List.all_eq_true.mp hkept _ (by simp [tripUpdateFilters])
  have habove := (Bool.and_eq_true_iff.mp hfilter).2
  exact nonneg_of_above_zero (beq_iff_eq.mp habove) (readColumn_eq_ok_iff.mp h)

namespace MemoryBatches

variable {b : MemoryBatches} {horizon : Int} {paths : List String}

theorem of_load_cons {columns : List String} {filters : List Filter} {path : String}
    {rows : List Record} (h : b.load columns filters (path :: paths) = .ok rows) :
    path ∉ b.unreadable ∧ ∃ rest, b.load columns filters paths = .ok rest ∧
      select columns filters (b.rowsAt path) ++ rest = rows := by
  unfold load at h
  split at h
  · cases h
  · next hreadable =>
    obtain ⟨rest, hrest, h⟩ := exists_of_bind_eq_ok h
    exact ⟨hreadable, rest, hrest, Except.ok.inj h⟩

/-- One file that cannot be read fails the load of all. -/
theorem readable_of_load {columns : List String} {filters : List Filter} {rows : List Record}
    (h : b.load columns filters paths = .ok rows) : ∀ path ∈ paths, path ∉ b.unreadable := by
  induction paths generalizing rows with
  | nil => exact fun path hpath => absurd hpath List.not_mem_nil
  | cons path paths ih =>
    obtain ⟨hreadable, rest, hrest, -⟩ := of_load_cons h
    exact List.forall_mem_cons.mpr ⟨hreadable, ih hrest⟩

theorem mem_load {columns : List String} {filters : List Filter} {rows : List Record}
    (h : b.load columns filters paths = .ok rows) {row : Record} (hrow : row ∈ rows) :
    ∃ path ∈ paths, ∃ whole ∈ b.rowsAt path,
      keepsRow filters whole = true ∧ project columns whole = row := by
  induction paths generalizing rows with
  | nil =>
    obtain rfl := Except.ok.inj h
    exact absurd hrow List.not_mem_nil
  | cons path paths ih =>
    obtain ⟨-, rest, hrest, rfl⟩ := of_load_cons h
    rcases List.mem_append.mp hrow with hrow | hrow
    · obtain ⟨whole, hwhole, rfl⟩ := List.mem_map.mp hrow
      obtain ⟨hwhole, hkept⟩ := List.mem_filter.mp hwhole
      exact ⟨path, List.mem_cons_self .., whole, hwhole, hkept, rfl⟩
    · obtain ⟨path', hpath, hfile⟩ := ih hrest hrow
      exact ⟨path', List.mem_cons_of_mem _ hpath, hfile⟩

/-- The files at the paths can be loaded, and a row of one of them foretells the event, within the
horizon after the message of the row. -/
def Supplies (b : MemoryBatches) (horizon : Int) (paths : List String) (e : Event) : Prop :=
  (∀ path ∈ paths, path ∉ b.unreadable) ∧
    ∃ path ∈ paths, ∃ row ∈ b.rowsAt path, ∃ prediction c,
      Foretold horizon row prediction c ∧ c.event = e ∧ c.messageTime ≤ e.timestamp ∧
        e.timestamp ≤ c.messageTime + max horizon 0

theorem Supplies.coherent {e : Event} (h : b.Supplies horizon paths e) : e.Coherent := by
  obtain ⟨-, _, -, _, -, _, _, hc, rfl, -⟩ := h
  exact hc.coherent

/-- The events of a partition come from its files. -/
theorem supplies_of_prepared {events : List Event}
    (h : prepared horizon (b.load tripUpdateColumns tripUpdateFilters paths) = .ok events)
    {e : Event} (he : e ∈ events) : b.Supplies horizon paths e := by
  obtain ⟨rows, extraction, hload, hextract, rfl⟩ := exists_of_prepared_eq_ok h
  obtain ⟨c, hlatest, rfl⟩ := mem_latestEvents.mp he
  obtain ⟨row, hrow, prediction, hc⟩ := (mem_candidates_iff hextract).mp hlatest.mem
  obtain ⟨path, hpath, whole, hwhole, hkept, rfl⟩ := mem_load hload hrow
  have hforetold := hc.of_project
  obtain ⟨hafter, hwithin⟩ := hforetold.lead (nonneg_of_kept hkept hforetold.message)
  exact ⟨readable_of_load hload, path, hpath, whole, hwhole, prediction, c, hforetold, rfl,
    hafter, hwithin⟩

end MemoryBatches

end StopArrivals
