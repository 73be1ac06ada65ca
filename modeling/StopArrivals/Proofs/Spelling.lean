import StopArrivals.Proofs.PredictionCounts

/-!
# How an integer is spelled

Wherever an integer is read, the JSON text of its decimal digits does as well as the JSON number.
The readers of single values are shown to agree first. For signed integers of 64 bits a text is read
as the number it spells; above them neither is an integer: the text is out of range, and so is the
floating-point number that the number is rounded to (`truncated?_of_unsigned`). Two runs over rows
that differ in nothing but spelling then make the same of every row and every prediction, up to the
value that a fault quotes.
-/

namespace StopArrivals

/-! ## Numbers above 63 bits -/

theorem le_roundHalfEven (num den : Nat) : num / den ≤ roundHalfEven num den := by
  simp only [roundHalfEven]
  split_ifs <;> omega

theorem floorLog2_of_unsigned {n : Nat} (hlow : 2 ^ 63 ≤ n) (hhigh : n < 2 ^ 64) :
    floorLog2 n 1 = 63 := by
  have hlog : n.log2 = 63 := (Nat.log2_eq_iff (by omega)).mpr ⟨hlow, hhigh⟩
  have hone : Nat.log2 1 = 0 := by decide
  have hfits : 1 <<< 63 ≤ n := by simpa using hlow
  simp only [floorLog2, hlog, hone]
  exact if_pos hfits

/-- A number with an exponent that is not negative is truncated to itself. -/
theorem truncated?_eq_none {x : Binary64} {e : Nat} (hexponent : x.exponent = e)
    (hsize : 2 ^ 63 ≤ x.significand * 2 ^ e) : truncated? x = none := by
  have hnone : (-(e : Int)).toNat = 0 := by omega
  have habs : x.truncate.natAbs = x.significand * 2 ^ e := by
    simp only [Binary64.truncate, hexponent, Int.toNat_natCast, hnone, Nat.shiftRight_zero,
      Nat.shiftLeft_eq]
    split
    · rw [Int.natAbs_neg, Int.natAbs_natCast]
    · rw [Int.natAbs_natCast]
  simp only [truncated?, habs]
  exact if_neg (by rw [Nat.one_shiftLeft]; omega)

/-- The nearest floating-point number is no less than `2 ^ 63`. -/
theorem truncated?_of_unsigned {n : Nat} (hlow : 2 ^ 63 ≤ n) (hhigh : n < 2 ^ 64) :
    (Binary64.ofInt n).bind truncated? = none := by
  have hexponent : max Binary64.minExponent (floorLog2 n 1 - 52) = 11 := by
    rw [floorLog2_of_unsigned hlow hhigh]
    rfl
  have hsignificand : 2 ^ 52 ≤ roundHalfEven (n <<< (-11 : Int).toNat) (1 <<< (11 : Int).toNat) := by
    refine le_trans ?_ (le_roundHalfEven _ _)
    show 2 ^ 52 ≤ n / 2048
    omega
  simp only [Binary64.ofInt, Binary64.ofRatio, Int.natAbs_natCast, hexponent,
    if_neg (show n ≠ 0 by omega)]
  generalize roundHalfEven _ _ = m at hsignificand
  split_ifs with hcarry hmax hmax
  · rw [Option.bind_some]
    refine truncated?_eq_none (e := 12) rfl ?_
    show 2 ^ 63 ≤ (1 <<< 52) * 2 ^ 12
    decide
  · rfl
  · rw [Option.bind_some]
    refine truncated?_eq_none (e := 11) rfl ?_
    show 2 ^ 63 ≤ m * 2 ^ 11
    omega
  · rfl

/-! ## Decimal digits -/

theorem trimChars_integerText (v : Int) : trimChars (integerText v).toList = integerChars v := by
  rw [integerText, String.toList_ofList]
  exact (trimsTo_of_not_blank fun _ => (writesInteger_integerChars v).not_blank).trimChars_eq

theorem readSigned_integerChars (width : Nat) (v : Int) : readSigned width (integerChars v) =
    if (IntRange.signed width).contains v then some v else none := by
  rw [readSigned, readInteger_integerChars, Option.filter_some]

/-! ## Values -/

/-- The left value is an integer that a JSON number can hold, signed or unsigned, and the right one
the text of its decimal digits. -/
inductive Respelled : Json → Json → Prop
  | integer {n : Int} (hlow : -9223372036854775808 ≤ n) (hhigh : n < 18446744073709551616) :
      Respelled (.number (.integer n)) (.text (integerText n))

section

variable {v v' : Json}

theorem integerOf?_respelled (h : Respelled v v') : integerOf? v = integerOf? v' := by
  obtain ⟨hlow, hhigh⟩ := h
  next n =>
  show (Number.integer n).int64?.or ((Number.integer n).toBinary64?.bind truncated?) =
    readSigned 64 (trimChars (integerText n).toList)
  rw [trimChars_integerText, readSigned_integerChars, Number.int64?, Number.toBinary64?]
  split
  · rfl
  · next hrange =>
    rw [IntRange.contains_signed64] at hrange
    obtain ⟨m, rfl⟩ := Int.eq_ofNat_of_zero_le (show 0 ≤ n by omega)
    exact truncated?_of_unsigned (by omega) (by omega)

theorem directionOf?_respelled (h : Respelled v v') : directionOf? v = directionOf? v' := by
  rw [directionOf?, directionOf?, integerOf?_respelled h]

theorem textOf?_respelled (h : Respelled v v') : textOf? v = textOf? v' := by
  obtain ⟨-, -⟩ := h
  rw [textOf?, textOf?, not_blank_integerText]
  rfl

/-- A number above 63 bits is above the 32 bits of a date as well. -/
theorem startDateOf?_respelled (h : Respelled v v') : startDateOf? v = startDateOf? v' := by
  obtain ⟨hlow, hhigh⟩ := h
  next n =>
  show (Number.integer n).int64?.bind (fun v => readServiceDate (integerChars v)) =
    readServiceDate (trimChars (integerText n).toList)
  rw [trimChars_integerText, Number.int64?]
  split
  · rfl
  · next hrange =>
    rw [IntRange.contains_signed64] at hrange
    have hwide : ¬(IntRange.signed 32).contains n = true := by
      rw [IntRange.contains_iff]
      show ¬(-2147483648 ≤ n ∧ n ≤ 2147483647)
      omega
    rw [readServiceDate, readSigned_integerChars, if_neg hwide, ite_self]
    rfl

end

/-! ## Members -/

theorem rel_imp {α β : Type} {r s : α → β → Prop} {o : Option α} {o' : Option β}
    (h : Option.Rel r o o') (hrs : ∀ {a b}, r a b → s a b) : Option.Rel s o o' := by
  cases h with
  | none => exact .none
  | some h => exact .some (hrs h)

theorem rel_bind {α β : Type} {r : α → α → Prop} {s : β → β → Prop} {o o' : Option α}
    {f : α → Option β} (h : Option.Rel r o o')
    (hf : ∀ {a a'}, r a a' → Option.Rel s (f a) (f a')) : Option.Rel s (o.bind f) (o'.bind f) := by
  cases h with
  | none => exact .none
  | some h => exact hf h

/-- Members of the same keys. The value of each is the same, or there is a rule for its key. -/
def RespelledMembers (rule : String → Json → Json → Prop) : Record → Record → Prop :=
  List.Forall₂ fun m m' => m.1 = m'.1 ∧ (m.2 = m'.2 ∨ rule m.1 m.2 m'.2)

def RespelledObject (rule : String → Json → Json → Prop) (v v' : Json) : Prop :=
  ∃ members members', v = .object members ∧ v' = .object members' ∧
    RespelledMembers rule members members'

/-- In an arrival the time. -/
def arrivalRule (key : String) (v v' : Json) : Prop := key = "time" ∧ Respelled v v'

/-- In a prediction the stop and its sequence, and what is in the arrival. -/
def predictionRule (key : String) (v v' : Json) : Prop :=
  key = "arrival" ∧ RespelledObject arrivalRule v v' ∨
    key ∈ ["stop_id", "stop_sequence"] ∧ Respelled v v'

def RespelledPredictions (v v' : Json) : Prop :=
  ∃ predictions predictions', v = .list predictions ∧ v' = .list predictions' ∧
    List.Forall₂ (fun p p' => p = p' ∨ RespelledObject predictionRule p p') predictions predictions'

/-- In a row all columns that may hold integers, and what is in the predictions. -/
def rowRule (key : String) (v v' : Json) : Prop :=
  key = "stop_time_update" ∧ RespelledPredictions v v' ∨
    key ∈ ["timestamp", "direction_id", "route_id", "start_date", "vehicle_id"] ∧ Respelled v v'

/-- Rows that differ at most in how integers are spelled. -/
def RespelledRow : Record → Record → Prop := RespelledMembers rowRule

section

variable {rule : String → Json → Json → Prop} {key : String}

theorem RespelledMembers.lookup {members members' : Record}
    (h : RespelledMembers rule members members') :
    Option.Rel (fun v v' => v = v' ∨ rule key v v') (Json.lookup key members)
      (Json.lookup key members') := by
  induction h with
  | nil => exact .none
  | @cons m m' members members' hm _ ih =>
    obtain ⟨hkey, hvalue⟩ := hm
    rw [Json.lookup, Json.lookup, ← hkey]
    by_cases hfound : m.1 = key
    · rw [if_pos hfound, if_pos hfound, ← hfound]
      exact .some hvalue
    · rw [if_neg hfound, if_neg hfound]
      exact ih

theorem RespelledObject.member {v v' : Json} (h : v = v' ∨ RespelledObject rule v v') :
    Option.Rel (fun w w' => w = w' ∨ rule key w w') (v.member? key) (v'.member? key) := by
  rcases h with rfl | ⟨members, members', rfl, rfl, h⟩
  · cases v.member? key with
    | none => exact .none
    | some w => exact .some (.inl rfl)
  · exact h.lookup

end

/-! ## Predictions -/

/-- Predictions of which the same is read. -/
structure ReadAlike (p p' : Json) : Prop where
  lacks : lacksEstimate p = lacksEstimate p'
  arrival : p.arrivalTime?.bind integerOf? = p'.arrivalTime?.bind integerOf?
  stop : (p.member? "stop_id").bind textOf? = (p'.member? "stop_id").bind textOf?
  sequence : (p.member? "stop_sequence").bind integerOf? =
    (p'.member? "stop_sequence").bind integerOf?

/-- A reader that does not tell spellings apart reads the same of both. -/
theorem bind_respelled {α : Type} {o o' : Option Json} {read : Json → Option α}
    (h : Option.Rel (fun v v' => v = v' ∨ Respelled v v') o o')
    (hread : ∀ {v v'}, Respelled v v' → read v = read v') : o.bind read = o'.bind read := by
  cases h with
  | none => rfl
  | some h =>
    rcases h with rfl | h
    · rfl
    · exact hread h

section

variable {p p' : Json}

theorem arrivalTime?_respelled (h : p = p' ∨ RespelledObject predictionRule p p') :
    Option.Rel (fun v v' => v = v' ∨ Respelled v v') p.arrivalTime? p'.arrivalTime? := by
  refine rel_bind (RespelledObject.member h) fun {v v'} harrival => ?_
  have hinner : v = v' ∨ RespelledObject arrivalRule v v' := by
    rcases harrival with rfl | ⟨-, hrule⟩ | ⟨hkey, -⟩
    · exact .inl rfl
    · exact .inr hrule
    · exact absurd hkey (by decide)
  exact rel_imp (RespelledObject.member hinner) fun htime => htime.imp_right And.right

theorem member?_respelled {key : String} (hkey : key ∈ ["stop_id", "stop_sequence"])
    (h : p = p' ∨ RespelledObject predictionRule p p') :
    Option.Rel (fun v v' => v = v' ∨ Respelled v v') (p.member? key) (p'.member? key) := by
  refine rel_imp (RespelledObject.member h) fun h => h.imp_right fun hrule => ?_
  rcases hrule with ⟨rfl, -⟩ | ⟨-, hrule⟩
  · exact absurd hkey (by decide)
  · exact hrule

theorem readAlike_of_respelled (h : p = p' ∨ RespelledObject predictionRule p p') :
    ReadAlike p p' where
  lacks := by
    have htime := arrivalTime?_respelled h
    rw [lacksEstimate, lacksEstimate]
    generalize p.arrivalTime? = time, p'.arrivalTime? = time' at htime
    cases htime with
    | none => rfl
    | some h =>
      rcases h with rfl | ⟨-, -⟩
      · rfl
      · rfl
  arrival := bind_respelled (arrivalTime?_respelled h) integerOf?_respelled
  stop := bind_respelled (member?_respelled (by decide) h) textOf?_respelled
  sequence := bind_respelled (member?_respelled (by decide) h) integerOf?_respelled

/-! ## Readings -/

theorem readPrediction_eq_candidate_iff_arrival {horizon messageTime : Int} {trip : Trip}
    {c : Candidate} : readPrediction horizon trip messageTime p = .candidate c ↔
      ∃ arrival stop sequence, p.arrivalTime?.bind integerOf? = some arrival ∧
        (0 ≤ leadTime arrival messageTime ∧ leadTime arrival messageTime ≤ horizon) ∧
        readStop p = .ok (stop, sequence) ∧
        c = ⟨.predicted ⟨trip, stop, sequence⟩ arrival, messageTime⟩ := by
  rw [readPrediction_eq_candidate_iff, ← bind_integerOf?]
  constructor
  · rintro ⟨time, arrival, stop, sequence, htime, harrival, hrest⟩
    exact ⟨arrival, stop, sequence, Option.bind_eq_some_iff.mpr ⟨time, htime, harrival⟩, hrest⟩
  · rintro ⟨arrival, stop, sequence, harrival, hrest⟩
    obtain ⟨time, htime, harrival⟩ := Option.bind_eq_some_iff.mp harrival
    exact ⟨time, arrival, stop, sequence, htime, harrival, hrest⟩

/-- What contributes the same is the same but for the fault, which is only told. -/
theorem ofReading_congr {r r' : Reading} (hcandidate : ∀ c, r = .candidate c ↔ r' = .candidate c)
    (hnone : r = .noEstimate ↔ r' = .noEstimate)
    (houtside : r = .outsideHorizon ↔ r' = .outsideHorizon) :
    Extraction.ofReading r = Extraction.ofReading r' := by
  cases r with
  | candidate c => rw [(hcandidate c).mp rfl]
  | noEstimate => rw [hnone.mp rfl]
  | outsideHorizon => rw [houtside.mp rfl]
  | malformed fault =>
    cases r' with
    | candidate c => cases (hcandidate c).mpr rfl
    | noEstimate => cases hnone.mpr rfl
    | outsideHorizon => cases houtside.mpr rfl
    | malformed fault' => rfl

theorem ReadAlike.ofReading_eq (h : ReadAlike p p') (horizon messageTime : Int) (trip : Trip) :
    Extraction.ofReading (readPrediction horizon trip messageTime p) =
      Extraction.ofReading (readPrediction horizon trip messageTime p') := by
  refine ofReading_congr (fun c => ?_) ?_ ?_
  · simp only [readPrediction_eq_candidate_iff_arrival, readStop_eq_ok_iff, h.arrival, h.stop,
      h.sequence]
  · rw [readPrediction_eq_noEstimate_iff, readPrediction_eq_noEstimate_iff, h.lacks]
  · rw [readPrediction_eq_outsideHorizon_iff, readPrediction_eq_outsideHorizon_iff, h.arrival]

theorem ofReadings_respelled {predictions predictions' : List Json}
    (h : List.Forall₂ (fun p p' => p = p' ∨ RespelledObject predictionRule p p')
      predictions predictions') (horizon messageTime : Int) (trip : Trip) :
    Extraction.ofReadings (predictions.map (readPrediction horizon trip messageTime)) =
      Extraction.ofReadings (predictions'.map (readPrediction horizon trip messageTime)) := by
  induction h with
  | nil => rfl
  | cons hp _ ih =>
    have hfirst := (readAlike_of_respelled hp).ofReading_eq horizon messageTime trip
    simp only [Extraction.ofReadings, List.map_cons, List.foldr_cons] at ih ⊢
    rw [hfirst, ih]

end

/-! ## Runs -/

/-- Both give a result, and the results are related, or both fail in the same column, whatever the
value is that they quote. -/
inductive Alike {α β : Type} (r : α → β → Prop) : Except Fault α → Except Fault β → Prop
  | ok {a : α} {b : β} (h : r a b) : Alike r (.ok a) (.ok b)
  | error (column value value' : String) :
      Alike r (.error (.coercion column value)) (.error (.coercion column value'))

theorem Alike.bind {α β γ δ : Type} {r : α → β → Prop} {s : γ → δ → Prop} {x : Except Fault α}
    {y : Except Fault β} {f : α → Except Fault γ} {g : β → Except Fault δ} (h : Alike r x y)
    (hfg : ∀ {a b}, r a b → Alike s (f a) (g b)) : Alike s (x >>= f) (y >>= g) := by
  cases h with
  | ok h => exact hfg h
  | error column value value' => exact .error column value value'

section

variable {row row' : Record}

theorem RespelledRow.column (h : RespelledRow row row') (column : String) :
    columnOf column row = columnOf column row' ∨
      rowRule column (columnOf column row) (columnOf column row') := by
  have hlookup : Option.Rel (fun v v' => v = v' ∨ rowRule column v v') (Json.lookup column row)
      (Json.lookup column row') := h.lookup
  rw [columnOf, columnOf]
  generalize Json.lookup column row = o, Json.lookup column row' = o' at hlookup
  cases hlookup with
  | none => exact .inl rfl
  | some h => exact h

theorem readColumn_alike {α : Type} {column : String} {read : Json → Option α}
    (h : read (columnOf column row) = read (columnOf column row')) :
    Alike (· = ·) (readColumn row column read) (readColumn row' column read) := by
  simp only [readColumn]
  change read ((Json.lookup column row).getD .null) = read ((Json.lookup column row').getD .null)
    at h
  rw [h]
  split
  · exact .ok rfl
  · exact .error _ _ _

/-- A reader of one of the columns that may be respelled. -/
theorem RespelledRow.readColumn (h : RespelledRow row row') {α : Type} {column : String}
    {read : Json → Option α} (hcolumn : column ≠ "stop_time_update")
    (hread : ∀ {v v'}, Respelled v v' → read v = read v') :
    Alike (· = ·) (StopArrivals.readColumn row column read)
      (StopArrivals.readColumn row' column read) := by
  refine readColumn_alike ?_
  rcases h.column column with heq | ⟨hlist, -⟩ | ⟨-, hrespelled⟩
  · rw [heq]
  · exact absurd hlist hcolumn
  · exact hread hrespelled

theorem RespelledRow.readTrip (h : RespelledRow row row') :
    Alike (· = ·) (StopArrivals.readTrip row) (StopArrivals.readTrip row') := by
  -- No rule is for the start time, so there it does not matter how an integer would be read.
  have hstart : Alike (· = ·) (StopArrivals.readColumn row "start_time" startTimeOf?)
      (StopArrivals.readColumn row' "start_time" startTimeOf?) := by
    refine readColumn_alike ?_
    rcases h.column "start_time" with heq | ⟨hlist, -⟩ | ⟨hcolumn, -⟩
    · rw [heq]
    · exact absurd hlist (by decide)
    · exact absurd hcolumn (by decide)
  unfold StopArrivals.readTrip
  refine Alike.bind (h.readColumn (by decide) directionOf?_respelled) ?_
  rintro direction _ rfl
  refine Alike.bind (h.readColumn (by decide) textOf?_respelled) ?_
  rintro route _ rfl
  refine Alike.bind (h.readColumn (by decide) startDateOf?_respelled) ?_
  rintro startDate _ rfl
  refine Alike.bind hstart ?_
  rintro startTime _ rfl
  refine Alike.bind (h.readColumn (by decide) textOf?_respelled) ?_
  rintro vehicle _ rfl
  exact .ok rfl

theorem RespelledRow.predictions (h : RespelledRow row row') :
    Json.lookup "stop_time_update" row = Json.lookup "stop_time_update" row' ∨
      ∃ predictions predictions', Json.lookup "stop_time_update" row = some (.list predictions) ∧
        Json.lookup "stop_time_update" row' = some (.list predictions') ∧
        List.Forall₂ (fun p p' => p = p' ∨ RespelledObject predictionRule p p')
          predictions predictions' := by
  have hlookup : Option.Rel (fun v v' => v = v' ∨ rowRule "stop_time_update" v v')
      (Json.lookup "stop_time_update" row) (Json.lookup "stop_time_update" row') := h.lookup
  generalize Json.lookup "stop_time_update" row = o,
    Json.lookup "stop_time_update" row' = o' at hlookup
  cases hlookup with
  | none => exact .inl rfl
  | some h =>
    rcases h with rfl | ⟨-, predictions, predictions', rfl, rfl, hlist⟩ | ⟨hcolumn, -⟩
    · exact .inl rfl
    · exact .inr ⟨predictions, predictions', rfl, rfl, hlist⟩
    · exact absurd hcolumn (by decide)

/-- Two such rows contribute the same, though they may be complained about in other words. -/
theorem RespelledRow.extractRow (h : RespelledRow row row') (horizon : Int) :
    Alike (fun x y => x.1 = y.1) (StopArrivals.extractRow horizon row)
      (StopArrivals.extractRow horizon row') := by
  unfold StopArrivals.extractRow
  refine Alike.bind (h.readColumn (by decide) integerOf?_respelled) ?_
  rintro messageTime _ rfl
  refine Alike.bind h.readTrip ?_
  rintro trip _ rfl
  dsimp only
  rcases h.predictions with heq | ⟨predictions, predictions', hlist, hlist', hrespelled⟩
  · rw [heq]
    split <;> exact .ok rfl
  · rw [hlist, hlist']
    refine .ok ?_
    simp only [ofReadings_respelled hrespelled]

end

theorem extractRows_respelled {rows rows' : List Record} (h : List.Forall₂ RespelledRow rows rows')
    (horizon : Int) :
    Alike (· = ·) (extractRows horizon rows).1 (extractRows horizon rows').1 := by
  induction h with
  | nil => exact .ok rfl
  | @cons row row' rows rows' hrow _ ih =>
    have hfirst := hrow.extractRow horizon
    simp only [extractRows]
    generalize extractRow horizon row = x, extractRow horizon row' = y at hfirst
    cases hfirst with
    | error column value value' => exact .error column value value'
    | @ok first first' hfirst =>
      show Alike (· = ·) ((extractRows horizon rows).1.map first.1.append)
        ((extractRows horizon rows').1.map first'.1.append)
      rw [hfirst]
      generalize (extractRows horizon rows).1 = rest, (extractRows horizon rows').1 = rest' at ih
      cases ih with
      | error column value value' => exact .error column value value'
      | ok hrest => exact .ok (congrArg _ hrest)

/-- Extraction does not care how an integer is spelled. -/
theorem extract_respelled {horizon : Int} {rows rows' : List Record}
    (h : List.Forall₂ RespelledRow rows rows') :
    Alike (· = ·) (extract horizon rows).1 (extract horizon rows').1 :=
  extractRows_respelled h (max horizon 0)

theorem extract_respelled_of_one_message :
    let numbered := messageWith 1 [predictionAt "70061" 1120]
    let spelled : Record := [("timestamp", .text "1000"), ("direction_id", .text "1"),
      ("route_id", .text "Red"), ("start_date", .text "20230508"), ("start_time", .text "07:30:00"),
      ("vehicle_id", .text "R-547A"), ("stop_time_update", .list [.object
        [("arrival", .object [("time", .text "1120")]), ("stop_id", .text "70061"),
          ("stop_sequence", .text "1")]])]
    RespelledRow numbered spelled ∧
      Alike (· = ·) (extract 120 [numbered]).1 (extract 120 [spelled]).1 := by
  intro numbered spelled
  have htext {n : Int} (s : String) (h : integerText n = s) (hlow : -9223372036854775808 ≤ n)
      (hhigh : n < 18446744073709551616) : Respelled (.number (.integer n)) (.text s) :=
    h ▸ .integer hlow hhigh
  have harrival : RespelledObject arrivalRule (.object [("time", .number (.integer 1120))])
      (.object [("time", .text "1120")]) :=
    ⟨_, _, rfl, rfl, .cons ⟨rfl, .inr ⟨rfl, htext "1120" rfl (by decide) (by decide)⟩⟩ .nil⟩
  have hprediction : RespelledObject predictionRule (predictionAt "70061" 1120) (.object
      [("arrival", .object [("time", .text "1120")]), ("stop_id", .text "70061"),
        ("stop_sequence", .text "1")]) :=
    ⟨_, _, rfl, rfl, .cons ⟨rfl, .inr (.inl ⟨rfl, harrival⟩)⟩ (.cons ⟨rfl, .inl rfl⟩
      (.cons ⟨rfl, .inr (.inr ⟨by decide, htext "1" rfl (by decide) (by decide)⟩)⟩ .nil))⟩
  have hrow : RespelledRow numbered spelled :=
    .cons ⟨rfl, .inr (.inr ⟨by decide, htext "1000" rfl (by decide) (by decide)⟩)⟩
      (.cons ⟨rfl, .inr (.inr ⟨by decide, htext "1" rfl (by decide) (by decide)⟩)⟩
      (.cons ⟨rfl, .inl rfl⟩ (.cons ⟨rfl, .inl rfl⟩ (.cons ⟨rfl, .inl rfl⟩ (.cons ⟨rfl, .inl rfl⟩
      (.cons ⟨rfl, .inr (.inl ⟨rfl, _, _, rfl, rfl, .cons (.inr hprediction) .nil⟩)⟩ .nil))))))
  exact ⟨hrow, extract_respelled (.cons hrow .nil)⟩

end StopArrivals
