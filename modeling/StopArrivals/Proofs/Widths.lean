import StopArrivals.Proofs.Candidates

/-!
# Candidates and the width of their columns

The event table takes sixty characters for a route, a vehicle and a stop. The readers of numbers,
dates and directions keep to the range of their columns, but no reader of text looks at its length.
So an extraction succeeds whatever the texts are, and its candidates fit the table exactly when the
texts do that they were read from (`candidates_fit_iff`).
-/

namespace StopArrivals

/-- How many characters a text column of the event table takes. -/
def textWidth : Nat := 60

/-- The texts of an event fit the columns that an insert binds them to. -/
structure Event.FitsTable (e : Event) : Prop where
  route : e.visit.trip.route.length ≤ textWidth
  vehicle : e.visit.trip.vehicle.length ≤ textWidth
  stop : e.visit.stop.length ≤ textWidth

/-- What a value is read as fits a text column, if it is read as text at all. -/
def Json.FitsColumn (value : Json) : Prop := ∀ text ∈ textOf? value, text.length ≤ textWidth

/-- Nothing but the widths of the texts that were read decides whether the candidates fit the event
table. The extraction itself succeeds either way. -/
theorem candidates_fit_iff {horizon : Int} {rows : List Record} {extraction : Extraction}
    (h : (extract horizon rows).1 = .ok extraction) :
    (∀ c ∈ extraction.candidates, c.event.FitsTable) ↔
      ∀ row ∈ rows, ∀ prediction c, Foretold horizon row prediction c →
        (columnOf "route_id" row).FitsColumn ∧ (columnOf "vehicle_id" row).FitsColumn ∧
          ∀ stop ∈ prediction.member? "stop_id", stop.FitsColumn := by
  constructor
  · intro hfit row hrow prediction c hc
    have hevent := hfit c ((mem_candidates_iff h).mpr ⟨row, hrow, prediction, hc⟩)
    have htrip := columns_of_readTrip hc.trip
    obtain ⟨value, hvalue, hstop⟩ := hc.stop
    refine ⟨?_, ?_, ?_⟩
    · intro text htext
      obtain rfl := Option.some.inj (htrip.route.symm.trans htext)
      exact hevent.route
    · intro text htext
      obtain rfl := Option.some.inj (htrip.vehicle.symm.trans htext)
      exact hevent.vehicle
    · intro stop hmember text htext
      obtain rfl := Option.some.inj (hvalue.symm.trans hmember)
      obtain rfl := Option.some.inj (hstop.symm.trans htext)
      exact hevent.stop
  · intro hfit c hmem
    obtain ⟨row, hrow, prediction, hc⟩ := (mem_candidates_iff h).mp hmem
    obtain ⟨hroute, hvehicle, hmember⟩ := hfit row hrow prediction c hc
    have htrip := columns_of_readTrip hc.trip
    obtain ⟨value, hvalue, hstop⟩ := hc.stop
    exact ⟨hroute _ htrip.route, hvehicle _ htrip.vehicle, hmember value hvalue _ hstop⟩

def candidateForStop (stop : String) : Candidate :=
  ⟨.predicted ⟨⟨"Red", 0, 20230508, 27000, "R-547A"⟩, stop, 1⟩ 1010, 1000⟩

set_option maxRecDepth 10000 in
theorem readTrip_messageWith (predictions : List Json) :
    readTrip (messageWith 0 predictions) = .ok ⟨"Red", 0, 20230508, 27000, "R-547A"⟩ := rfl

/-- The name of a stop may have any length. -/
theorem extract_messageWith {stop : String} (hstop : isBlankText stop = false) :
    (extract 120 [messageWith 0 [predictionAt stop 1010]]).1 =
      .ok ⟨[candidateForStop stop], ⟨1, 1, 1, 0, 0, 0⟩⟩ := by
  have htext : textOf? (.text stop) = some stop := by
    show (if isBlankText stop then none else some stop) = some stop
    rw [hstop]
    rfl
  have hread : readStop (predictionAt stop 1010) = .ok (stop, 1) := by
    have hmember : readMember (predictionAt stop 1010) "stop_id" textOf? = .ok stop := by
      have hlookup : (predictionAt stop 1010).member? "stop_id" = some (.text stop) := rfl
      unfold readMember
      rw [hlookup]
      dsimp only
      rw [htext]
    unfold readStop
    rw [hmember]
    rfl
  have hreading : readPrediction 120 ⟨"Red", 0, 20230508, 27000, "R-547A"⟩ 1000
      (predictionAt stop 1010) = .candidate (candidateForStop stop) :=
    readPrediction_eq_candidate_iff.mpr
      ⟨.number (.integer 1010), 1010, stop, 1, rfl, rfl, by decide, hread, rfl⟩
  have hmessage : readColumn (messageWith 0 [predictionAt stop 1010]) "timestamp" integerOf? =
      .ok 1000 := rfl
  have hlist : Json.lookup "stop_time_update" (messageWith 0 [predictionAt stop 1010]) =
      some (.list [predictionAt stop 1010]) := rfl
  have hrow : extractRow 120 (messageWith 0 [predictionAt stop 1010]) =
      .ok (⟨[candidateForStop stop], ⟨1, 1, 1, 0, 0, 0⟩⟩, []) := by
    unfold extractRow
    rw [hmessage, readTrip_messageWith, hlist]
    show Except.ok (_, List.filterMap _ ([predictionAt stop 1010].map _)) = _
    rw [List.map_singleton, hreading]
    rfl
  show (extractRows 120 [messageWith 0 [predictionAt stop 1010]]).1 = _
  unfold extractRows
  rw [hrow]
  rfl

theorem candidates_fit_of_short_stop :
    ∃ extraction, (extract 120 [messageWith 0 [predictionAt "70061" 1010]]).1 = .ok extraction ∧
      (∀ c ∈ extraction.candidates, c.event.FitsTable) ∧
      ∀ prediction c, Foretold 120 (messageWith 0 [predictionAt "70061" 1010]) prediction c →
        ∀ stop ∈ prediction.member? "stop_id", stop.FitsColumn := by
  have hextract := extract_messageWith (show isBlankText "70061" = false by decide)
  have hfit : ∀ c ∈ [candidateForStop "70061"], c.event.FitsTable := by
    intro c hc
    obtain rfl := List.mem_singleton.mp hc
    exact ⟨by decide, by decide, by decide⟩
  refine ⟨_, hextract, hfit, ?_⟩
  intro prediction c hc
  exact ((candidates_fit_iff hextract).mp hfit _ (List.mem_singleton_self _) prediction c hc).2.2

/-- Sixty-one characters. -/
def longStop : String := String.ofList (List.replicate 61 '7')

/-- A stop with a name that the table cannot take becomes a candidate all the same. -/
theorem candidate_with_long_stop :
    ∃ extraction, (extract 120 [messageWith 0 [predictionAt longStop 1010]]).1 = .ok extraction ∧
      ¬∀ c ∈ extraction.candidates, c.event.FitsTable := by
  have hstop : isBlankText longStop = false := by
    unfold isBlankText longStop
    rw [String.toList_ofList]
    rfl
  refine ⟨_, extract_messageWith hstop, ?_⟩
  intro hfit
  have hlong := (hfit _ (List.mem_singleton_self _)).stop
  change longStop.length ≤ 60 at hlong
  unfold longStop at hlong
  rw [String.length_ofList, List.length_replicate] at hlong
  omega

end StopArrivals
