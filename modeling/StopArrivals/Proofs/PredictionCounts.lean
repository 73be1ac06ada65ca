import Mathlib.Algebra.Ring.Nat
import StopArrivals.Proofs.Announcements

/-!
# How predictions are counted

Each prediction has one reading, and each reading advances one counter beside that of the
predictions (`ReadingsCounted`). A row that has something else than a list there advances the counter
of the malformed ones too, although it has no prediction; that is the only way in which the counters
get out of balance (`PredictionsCounted`). Of the reasons to leave a prediction out, a missing
estimate comes first and an estimate outside of the horizon second, before anything else of the
prediction is looked at.
-/

namespace StopArrivals

/-! ## Reasons to leave a prediction out -/

def Json.arrivalTime? (prediction : Json) : Option Json :=
  (prediction.member? "arrival").bind (Json.member? "time")

/-- The time of arrival is absent or null. -/
def lacksEstimate (prediction : Json) : Bool := prediction.arrivalTime?.all Json.isNull

/-- Both times can be read, and the lead is negative or above the horizon. -/
def outsideHorizon (horizon : Int) (row : Record) (prediction : Json) : Bool :=
  (integerOf? (columnOf "timestamp" row)).any fun messageTime =>
    (prediction.arrivalTime?.bind integerOf?).any fun arrival =>
      !decide (0 ≤ leadTime arrival messageTime ∧ leadTime arrival messageTime ≤ max horizon 0)

/-- A row with something else than a list where its predictions should be. -/
def unlisted (row : Record) : Bool :=
  match Json.lookup "stop_time_update" row with
  | none | some .null | some (.list _) => false
  | some _ => true

section

variable {horizon messageTime : Int} {trip : Trip} {prediction : Json}

theorem estimate?_eq_none_iff : estimate? prediction = none ↔ lacksEstimate prediction = true := by
  unfold lacksEstimate Json.arrivalTime? estimate?
  split
  · next hnone => simp [hnone]
  · next hnull => simp [hnull, Json.isNull]
  · next time hnull htime =>
    rw [htime]
    cases time with
    | null => exact absurd rfl hnull
    | bool | number | text | list | object => simp [Json.isNull]

theorem bind_integerOf? :
    (estimate? prediction).bind integerOf? = prediction.arrivalTime?.bind integerOf? := by
  unfold Json.arrivalTime? estimate?
  split
  · next hnone => rw [hnone]
  · next hnull => rw [hnull]; rfl
  · next htime => rw [htime]

theorem readPrediction_eq_noEstimate_iff :
    readPrediction horizon trip messageTime prediction = .noEstimate ↔
      lacksEstimate prediction = true := by
  rw [← estimate?_eq_none_iff]
  unfold readPrediction
  split
  · next hnone => simp [hnone]
  · next time htime =>
    rw [htime]
    refine iff_of_false (fun h => ?_) (by simp)
    split at h
    · cases h
    · dsimp only at h
      split at h
      · split at h <;> cases h
      · cases h

theorem outsideHorizon_iff {row : Record}
    (hmessage : integerOf? (columnOf "timestamp" row) = some messageTime) :
    outsideHorizon horizon row prediction = true ↔
      ∃ arrival, prediction.arrivalTime?.bind integerOf? = some arrival ∧
        ¬(0 ≤ leadTime arrival messageTime ∧ leadTime arrival messageTime ≤ max horizon 0) := by
  rw [outsideHorizon, hmessage, Option.any_some]
  cases prediction.arrivalTime?.bind integerOf? with
  | none => simp
  | some arrival => simp only [Option.any_some, Bool.not_eq_true', decide_eq_false_iff_not,
      Option.some.injEq, exists_eq_left']

/-- Stop and sequence are not looked at before the lead. -/
theorem readPrediction_eq_outsideHorizon_iff :
    readPrediction horizon trip messageTime prediction = .outsideHorizon ↔
      ∃ arrival, prediction.arrivalTime?.bind integerOf? = some arrival ∧
        ¬(0 ≤ leadTime arrival messageTime ∧ leadTime arrival messageTime ≤ horizon) := by
  rw [← bind_integerOf?]
  unfold readPrediction
  split
  · next hnone => simp [hnone]
  · next time htime =>
    rw [htime, Option.bind_some]
    split
    · next hunread => simp [hunread]
    · next arrival harrival =>
      dsimp only
      rw [harrival]
      split
      · next hlead =>
        refine iff_of_false (fun h => ?_) ?_
        · split at h <;> cases h
        · rintro ⟨arrival', harrival', hlead'⟩
          obtain rfl := Option.some.inj harrival'
          exact hlead' hlead
      · next hlead => exact iff_of_true rfl ⟨arrival, rfl, hlead⟩

end

/-! ## Readings -/

/-- Each reading is counted once, and what is malformed is told. -/
structure ReadingsCounted (trip : Trip) (readings : List Reading) (e : Extraction) : Prop where
  rows : e.counts.rows = 0
  predictions : e.counts.predictions = readings.length
  candidates : e.counts.candidates = e.candidates.length
  noEstimate : e.counts.noEstimate = readings.countP fun r => decide (r = .noEstimate)
  outsideHorizon : e.counts.outsideHorizon = readings.countP fun r => decide (r = .outsideHorizon)
  malformed : e.counts.malformed = (readings.filterMap (readingNotice? trip)).length
  balance : e.counts.candidates + e.counts.noEstimate + e.counts.outsideHorizon +
    e.counts.malformed = e.counts.predictions

section

variable {trip : Trip}

theorem readingsCounted_empty (trip : Trip) : ReadingsCounted trip [] .empty :=
  ⟨rfl, rfl, rfl, rfl, rfl, rfl, rfl⟩

theorem readingsCounted_ofReading (reading : Reading) :
    ReadingsCounted trip [reading] (.ofReading reading) := by
  cases reading <;> exact ⟨rfl, rfl, rfl, rfl, rfl, rfl, rfl⟩

theorem ReadingsCounted.append {readings readings' : List Reading} {e e' : Extraction}
    (h : ReadingsCounted trip readings e) (h' : ReadingsCounted trip readings' e') :
    ReadingsCounted trip (readings ++ readings') (e.append e') where
  rows := congrArg₂ (· + ·) h.rows h'.rows
  predictions := by
    rw [List.length_append, ← h.predictions, ← h'.predictions]
    rfl
  candidates := by
    rw [Extraction.append, List.length_append, ← h.candidates, ← h'.candidates]
    rfl
  noEstimate := by
    rw [List.countP_append, ← h.noEstimate, ← h'.noEstimate]
    rfl
  outsideHorizon := by
    rw [List.countP_append, ← h.outsideHorizon, ← h'.outsideHorizon]
    rfl
  malformed := by
    rw [List.filterMap_append, List.length_append, ← h.malformed, ← h'.malformed]
    rfl
  balance := by
    have hb := h.balance
    have hb' := h'.balance
    simp only [Extraction.append, ExtractionCounts.add]
    omega

theorem readingsCounted_ofReadings (readings : List Reading) :
    ReadingsCounted trip readings (.ofReadings readings) := by
  induction readings with
  | nil => exact readingsCounted_empty trip
  | cons reading readings ih => exact (readingsCounted_ofReading reading).append ih

end

/-! ## Rows -/

/-- What the counters of an extraction tell about the rows. -/
structure PredictionsCounted (horizon : Int) (rows : List Record) (e : Extraction)
    (notices : List Notice) : Prop where
  each_row : e.counts.rows = rows.length
  predictions : e.counts.predictions = (rows.map fun row => (predictionsOf row).length).sum
  candidates : e.counts.candidates = e.candidates.length
  noEstimate : e.counts.noEstimate =
    (rows.map fun row => (predictionsOf row).countP lacksEstimate).sum
  outsideHorizon : e.counts.outsideHorizon =
    (rows.map fun row => (predictionsOf row).countP (outsideHorizon horizon row)).sum
  balance : e.counts.candidates + e.counts.noEstimate + e.counts.outsideHorizon +
    e.counts.malformed = e.counts.predictions + rows.countP unlisted
  told : notices.length = e.counts.malformed
  debug : ∀ n ∈ notices, n.level = .debug

theorem PredictionsCounted.append {horizon : Int} {rows rows' : List Record} {e e' : Extraction}
    {notices notices' : List Notice} (h : PredictionsCounted horizon rows e notices)
    (h' : PredictionsCounted horizon rows' e' notices') :
    PredictionsCounted horizon (rows ++ rows') (e.append e') (notices ++ notices') where
  each_row := by
    rw [List.length_append, ← h.each_row, ← h'.each_row]
    rfl
  predictions := by
    rw [List.map_append, List.sum_append, ← h.predictions, ← h'.predictions]
    rfl
  candidates := by
    rw [Extraction.append, List.length_append, ← h.candidates, ← h'.candidates]
    rfl
  noEstimate := by
    rw [List.map_append, List.sum_append, ← h.noEstimate, ← h'.noEstimate]
    rfl
  outsideHorizon := by
    rw [List.map_append, List.sum_append, ← h.outsideHorizon, ← h'.outsideHorizon]
    rfl
  balance := by
    have hb := h.balance
    have hb' := h'.balance
    rw [List.countP_append]
    simp only [Extraction.append, ExtractionCounts.add]
    omega
  told := by
    rw [List.length_append, h.told, h'.told]
    rfl
  debug := List.forall_mem_append.mpr ⟨h.debug, h'.debug⟩

/-- A row has the counts of the readings of its predictions. -/
theorem predictionsCounted_of_readings {horizon messageTime : Int} {trip : Trip} {row : Record}
    {predictions : List Json} {e : Extraction}
    (hmessage : readColumn row "timestamp" integerOf? = .ok messageTime)
    (hpredictions : predictionsOf row = predictions) (hlisted : unlisted row = false)
    (h : ReadingsCounted trip
      (predictions.map (readPrediction (max horizon 0) trip messageTime)) e) :
    PredictionsCounted horizon [row]
      { e with counts := { e.counts with rows := e.counts.rows + 1 } }
      ((predictions.map (readPrediction (max horizon 0) trip messageTime)).filterMap
        (readingNotice? trip)) := by
  refine ⟨?_, ?_, h.candidates, ?_, ?_, ?_, h.malformed.symm, ?_⟩
  · rw [h.rows]
    rfl
  · rw [List.map_singleton, List.sum_singleton, hpredictions, h.predictions, List.length_map]
  · rw [List.map_singleton, List.sum_singleton, hpredictions, h.noEstimate, List.countP_map]
    refine List.countP_congr fun prediction _ => ?_
    rw [Function.comp_apply, decide_eq_true_eq, readPrediction_eq_noEstimate_iff]
  · rw [List.map_singleton, List.sum_singleton, hpredictions, h.outsideHorizon, List.countP_map]
    refine List.countP_congr fun prediction _ => ?_
    rw [Function.comp_apply, decide_eq_true_eq, readPrediction_eq_outsideHorizon_iff,
      outsideHorizon_iff (readColumn_eq_ok_iff.mp hmessage)]
  · rw [List.countP_singleton, hlisted]
    exact h.balance
  · intro n hn
    obtain ⟨reading, -, hreading⟩ := List.mem_filterMap.mp hn
    cases reading with
    | malformed fault =>
      obtain rfl := Option.some.inj hreading
      rfl
    | candidate | noEstimate | outsideHorizon => cases hreading

theorem predictionsCounted_of_row {horizon : Int} {row : Record} {e : Extraction}
    {notices : List Notice} (h : extractRow (max horizon 0) row = .ok (e, notices)) :
    PredictionsCounted horizon [row] e notices := by
  unfold extractRow at h
  obtain ⟨messageTime, hmessage, h⟩ := exists_of_bind_eq_ok h
  obtain ⟨trip, -, h⟩ := exists_of_bind_eq_ok h
  dsimp only at h
  split at h
  · next hlookup =>
    obtain ⟨rfl, rfl⟩ := Prod.mk.inj (Except.ok.inj h)
    exact predictionsCounted_of_readings hmessage (by rw [predictionsOf, hlookup])
      (by rw [unlisted, hlookup]) (readingsCounted_empty trip)
  · next hlookup =>
    obtain ⟨rfl, rfl⟩ := Prod.mk.inj (Except.ok.inj h)
    exact predictionsCounted_of_readings hmessage (by rw [predictionsOf, hlookup])
      (by rw [unlisted, hlookup]) (readingsCounted_empty trip)
  · next predictions hlookup =>
    obtain ⟨rfl, rfl⟩ := Prod.mk.inj (Except.ok.inj h)
    exact predictionsCounted_of_readings hmessage (by rw [predictionsOf, hlookup])
      (by rw [unlisted, hlookup]) (readingsCounted_ofReadings _)
  · next other hnull hlist hlookup =>
    obtain ⟨rfl, rfl⟩ := Prod.mk.inj (Except.ok.inj h)
    have hpredictions : predictionsOf row = [] := by
      rw [predictionsOf, hlookup]
      cases other with
      | list predictions => exact absurd rfl (hlist predictions)
      | null | bool | number | text | object => rfl
    have hunlisted : unlisted row = true := by
      rw [unlisted, hlookup]
      cases other with
      | list predictions => exact absurd rfl (hlist predictions)
      | null => exact absurd rfl hnull
      | bool | number | text | object => rfl
    -- It counts as malformed without being a prediction, which is what the balance makes up for.
    refine ⟨rfl, ?_, rfl, ?_, ?_, ?_, rfl, ?_⟩
    · rw [List.map_singleton, hpredictions]
      rfl
    · rw [List.map_singleton, hpredictions]
      rfl
    · rw [List.map_singleton, hpredictions]
      rfl
    · rw [List.countP_singleton, hunlisted]
      rfl
    · exact List.forall_mem_singleton.mpr rfl

theorem predictionsCounted_of_rows {horizon : Int} {rows : List Record} {e : Extraction}
    {notices : List Notice} (h : extractRows (max horizon 0) rows = (.ok e, notices)) :
    PredictionsCounted horizon rows e notices := by
  induction rows generalizing e notices with
  | nil =>
    obtain ⟨he, rfl⟩ := Prod.mk.inj h
    obtain rfl := Except.ok.inj he
    exact ⟨rfl, rfl, rfl, rfl, rfl, rfl, rfl, fun _ hn => absurd hn List.not_mem_nil⟩
  | cons row rows ih =>
    simp only [extractRows] at h
    cases hrow : extractRow (max horizon 0) row with
    | error fault =>
      rw [hrow] at h
      cases (Prod.mk.inj h).1
    | ok first =>
      rw [hrow] at h
      obtain ⟨hresult, rfl⟩ := Prod.mk.inj h
      obtain ⟨rest, hrest, rfl⟩ := exists_of_map_eq_ok hresult
      exact (predictionsCounted_of_row hrow).append (ih (Prod.ext hrest rfl))

/-! ## What is counted -/

/-- What is no object has no members, so nothing in it can be an estimate. -/
theorem lacksEstimate_iff {prediction : Json} : lacksEstimate prediction = true ↔
    ∀ members arrival, prediction = .object members →
      Json.lookup "arrival" members = some (.object arrival) →
        Json.lookup "time" arrival = none ∨ Json.lookup "time" arrival = some .null := by
  have htime {time : Option Json} :
      time.all Json.isNull = true ↔ time = none ∨ time = some .null := by
    rcases time with _ | value
    · simp
    · cases value <;> simp [Json.isNull]
  rw [lacksEstimate, htime]
  constructor
  · rintro h members arrival rfl harrival
    rwa [Json.arrivalTime?, Json.member?, harrival] at h
  · intro h
    rw [Json.arrivalTime?]
    cases prediction with
    | object members =>
      cases harrival : Json.lookup "arrival" members with
      | none => exact .inl (by rw [Json.member?, harrival]; rfl)
      | some value =>
        rw [Json.member?, harrival, Option.bind_some]
        cases value with
        | object arrival => exact h members arrival rfl harrival
        | null | bool | number | text | list => exact .inl rfl
    | null | bool | number | text | list => exact .inl rfl

/-- The greatest horizon has no end, and below it the width of the lead makes no difference. -/
theorem leadTime_within_max_iff {horizon arrival messageTime : Int} :
    0 ≤ leadTime arrival messageTime ∧ leadTime arrival messageTime ≤ max horizon 0 ↔
      0 ≤ arrival - messageTime ∧
        (arrival - messageTime ≤ max horizon 0 ∨ 9223372036854775807 ≤ horizon) := by
  rw [leadTime_eq]
  omega

/-- Every prediction is counted once, under the first reason there is to leave it out. -/
theorem predictions_counted_once {horizon : Int} {rows : List Record} {extraction : Extraction}
    (h : (extract horizon rows).1 = .ok extraction) :
    PredictionsCounted horizon rows extraction (extract horizon rows).2 ∧
      (∀ prediction, lacksEstimate prediction = true ↔
        ∀ members arrival, prediction = .object members →
          Json.lookup "arrival" members = some (.object arrival) →
            Json.lookup "time" arrival = none ∨ Json.lookup "time" arrival = some .null) ∧
      ∀ arrival messageTime,
        0 ≤ leadTime arrival messageTime ∧ leadTime arrival messageTime ≤ max horizon 0 ↔
          0 ≤ arrival - messageTime ∧
            (arrival - messageTime ≤ max horizon 0 ∨ 9223372036854775807 ≤ horizon) :=
  ⟨predictionsCounted_of_rows (Prod.ext h rfl), fun _ => lacksEstimate_iff,
    fun _ _ => leadTime_within_max_iff⟩

/-- Of the predictions the second one has no stop, but what counts is that it is too late. The
second row has a number for a list. -/
theorem predictions_counted_once_of_two_rows :
    let late : Json := .object [("arrival", .object [("time", .number (.integer 1121))])]
    let unread : Json := .object [("arrival", .object [("time", .text "soon")])]
    let rows := [messageWith 0 [predictionAt "70061" 1120, late, .null, unread],
      ("stop_time_update", .number (.integer 7)) :: messageWith 1 []]
    ∃ extraction, (extract 120 rows).1 = .ok extraction ∧
      extraction.counts = ⟨2, 4, 1, 1, 1, 2⟩ ∧
      PredictionsCounted 120 rows extraction (extract 120 rows).2 :=
  ⟨_, rfl, rfl, (predictions_counted_once rfl).1⟩

end StopArrivals
