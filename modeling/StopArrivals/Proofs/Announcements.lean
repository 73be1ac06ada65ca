import StopArrivals.Proofs.Candidates

/-!
# What messages announce

An extraction, without the steps that it takes. It fails exactly when a row has a column that cannot
be read, and names the first such column of the first such row. Otherwise its candidates are what
the rows announce, in the order of the rows and of their predictions (`extract_outcome`).

An announcement is described over unbounded integers (`Announces`). The lead time is kept within 64
bits, and a horizon at the end of that range would let in everything beyond it; below it the bounds
make no difference (`leadTime_within_iff`).
-/

namespace StopArrivals

/-! ## Single values -/

/-- A text that is not blank, or a number as it is printed. -/
def Json.Names (name : String) : Json → Prop
  | .text s => s = name ∧ isBlankText s = false
  | .number n => n.text = name
  | _ => False

theorem textOf?_eq_some_iff {value : Json} {name : String} :
    textOf? value = some name ↔ value.Names name := by
  cases value with
  | text s =>
    show (if isBlankText s then none else some s) = some name ↔ s = name ∧ isBlankText s = false
    split <;> simp [*]
  | number n => exact Option.some_inj
  | null | bool | list | object => exact iff_of_false (by simp [textOf?]) id

theorem estimate?_eq_some_iff {prediction time : Json} : estimate? prediction = some time ↔
    (prediction.member? "arrival").bind (Json.member? "time") = some time ∧ time ≠ .null := by
  unfold estimate?
  split
  · next hnone => simp [hnone]
  · next hnull =>
    rw [hnull]
    refine iff_of_false (by simp) ?_
    rintro ⟨htime, hsome⟩
    exact hsome (Option.some.inj htime).symm
  · next value hnull hvalue =>
    rw [hvalue]
    constructor
    · intro htime
      obtain rfl := Option.some.inj htime
      exact ⟨rfl, fun h => hnull h⟩
    · exact fun h => h.1

theorem leadTime_within_iff {horizon arrival messageTime : Int}
    (hbits : horizon < 9223372036854775807) :
    0 ≤ leadTime arrival messageTime ∧ leadTime arrival messageTime ≤ horizon ↔
      0 ≤ arrival - messageTime ∧ arrival - messageTime ≤ horizon := by
  rw [leadTime_eq]
  omega

/-- At the end of the range the bounds do make a difference. -/
example : leadTime 9223372036854775807 (-1) ≤ 9223372036854775807 ∧
    ¬(9223372036854775807 - -1 : Int) ≤ 9223372036854775807 := by
  decide

/-! ## Announcements -/

/-- A prediction of a row announces a candidate. Nothing of this can be read from null, so a member
that is null is no better than a missing one. -/
structure Announces (horizon : Int) (row : Record) (prediction : Json) (c : Candidate) : Prop where
  message : integerOf? (columnOf "timestamp" row) = some c.messageTime
  trip : TripColumns row c.event.visit.trip
  arrival : ∃ time, (prediction.member? "arrival").bind (Json.member? "time") = some time ∧
    integerOf? time = some c.event.timestamp
  lead : 0 ≤ c.event.timestamp - c.messageTime ∧
    c.event.timestamp - c.messageTime ≤ max horizon 0
  stop : ∃ value, prediction.member? "stop_id" = some value ∧ value.Names c.event.visit.stop
  sequence : ∃ value, prediction.member? "stop_sequence" = some value ∧
    integerOf? value = some c.event.visit.sequence ∧
      (IntRange.signed 32).contains c.event.visit.sequence = true
  still : c.event.moving = false
  fingerprint : c.event.fingerprint = c.event.visit.fingerprint

theorem Event.eq_predicted {e : Event} (hfingerprint : e.fingerprint = e.visit.fingerprint)
    (hstill : e.moving = false) : e = .predicted e.visit e.timestamp := by
  obtain ⟨fingerprint, visit, timestamp, moving⟩ := e
  obtain rfl : moving = false := hstill
  obtain rfl : fingerprint = visit.fingerprint := hfingerprint
  rfl

theorem foretold?_eq_some_iff_announces {horizon : Int} (hbits : horizon < 9223372036854775807)
    {row : Record} {prediction : Json} {c : Candidate} :
    foretold? horizon row prediction = some c ↔ Announces horizon row prediction c := by
  have hhorizon : max horizon 0 < 9223372036854775807 := by omega
  rw [foretold?_eq_some_iff, readPrediction_eq_candidate_iff, readColumn_eq_ok_iff]
  constructor
  · rintro ⟨hmessage, htrip, time, arrival, s, v, htime, harrival, hlead, hstop, hc⟩
    obtain rfl : c.event.visit.stop = s := congrArg (·.event.visit.stop) hc
    obtain rfl : c.event.visit.sequence = v := congrArg (·.event.visit.sequence) hc
    obtain rfl : c.event.timestamp = arrival := congrArg (·.event.timestamp) hc
    obtain ⟨hstop, hsequence, hwidth⟩ := readStop_eq_ok_iff.mp hstop
    obtain ⟨value, hvalue, hnames⟩ := Option.bind_eq_some_iff.mp hstop
    obtain ⟨number, hnumber, hread⟩ := Option.bind_eq_some_iff.mp hsequence
    exact
      { message := hmessage
        trip := columns_of_readTrip htrip
        arrival := ⟨time, (estimate?_eq_some_iff.mp htime).1, harrival⟩
        lead := (leadTime_within_iff hhorizon).mp hlead
        stop := ⟨value, hvalue, textOf?_eq_some_iff.mp hnames⟩
        sequence := ⟨number, hnumber, hread, hwidth⟩
        still := congrArg (·.event.moving) hc
        fingerprint := congrArg (·.event.fingerprint) hc }
  · intro h
    obtain ⟨time, htime, harrival⟩ := h.arrival
    obtain ⟨value, hvalue, hnames⟩ := h.stop
    obtain ⟨number, hnumber, hread, hwidth⟩ := h.sequence
    have hsome : time ≠ .null := by
      rintro rfl
      cases harrival
    have hstop : readStop prediction = .ok (c.event.visit.stop, c.event.visit.sequence) := by
      rw [readStop_eq_ok_iff, hvalue, hnumber]
      exact ⟨textOf?_eq_some_iff.mpr hnames, hread, hwidth⟩
    have hevent : c.event = .predicted c.event.visit c.event.timestamp :=
      Event.eq_predicted h.fingerprint h.still
    exact ⟨h.message, readTrip_of_columns h.trip, time, _, _, _,
      estimate?_eq_some_iff.mpr ⟨htime, hsome⟩, harrival, (leadTime_within_iff hhorizon).mpr h.lead,
      hstop, congrArg (Candidate.mk · c.messageTime) hevent⟩

/-- An extraction fails with the first fault of the first row that has one. Otherwise its candidates
are what the predictions announce, in the order of the rows and of their lists. -/
theorem extract_outcome {horizon : Int} (hbits : horizon < 9223372036854775807)
    (rows : List Record) :
    (∀ fault, (extract horizon rows).1 = .error fault ↔ rows.findSome? rowFault? = some fault) ∧
      (∀ row prediction c,
        foretold? horizon row prediction = some c ↔ Announces horizon row prediction c) ∧
      (rows.findSome? rowFault? = none → ∃ extraction,
        (extract horizon rows).1 = .ok extraction ∧ extraction.candidates =
          rows.flatMap fun row => (predictionsOf row).filterMap (foretold? horizon row)) := by
  have herror : errorOf? (extract horizon rows).1 = rows.findSome? rowFault? := errorOf?_extractRows
  refine ⟨fun fault => ?_, fun row prediction c => foretold?_eq_some_iff_announces hbits, ?_⟩
  · rw [← herror, errorOf?_eq_some_iff]
  · intro hnone
    obtain ⟨extraction, hextract⟩ := errorOf?_eq_none_iff.mp (herror.trans hnone)
    exact ⟨extraction, hextract, candidates_eq hextract⟩

/-- The first arrival is at the end of the horizon and the second one beyond it. The last row has a
direction that there is not, and no prediction. -/
theorem extract_outcome_at_horizon :
    (120 : Int) < 9223372036854775807 ∧
      (extract 120 [messageWith 0
        [predictionAt "70061" 1120, predictionAt "70061" 1121, .null]]).1.map Extraction.candidates =
        .ok [⟨.predicted ⟨⟨"Red", 0, 20230508, 27000, "R-547A"⟩, "70061", 1⟩ 1120, 1000⟩] ∧
      (extract 120 [messageWith 0 [predictionAt "70061" 1120], messageWith 2 []]).1.map
        Extraction.candidates = .error (.coercion "direction_id" "2") := by
  have hbits : (120 : Int) < 9223372036854775807 := by decide
  refine ⟨hbits, ?_, ?_⟩
  · obtain ⟨-, -, hok⟩ :=
      extract_outcome hbits
        [messageWith 0 [predictionAt "70061" 1120, predictionAt "70061" 1121, .null]]
    obtain ⟨extraction, hextract, hcandidates⟩ := hok (by rfl)
    rw [hextract]
    refine congrArg Except.ok (hcandidates.trans ?_)
    rfl
  · obtain ⟨herror, -⟩ :=
      extract_outcome hbits [messageWith 0 [predictionAt "70061" 1120], messageWith 2 []]
    rw [(herror (.coercion "direction_id" "2")).mpr (by rfl)]
    rfl

end StopArrivals
