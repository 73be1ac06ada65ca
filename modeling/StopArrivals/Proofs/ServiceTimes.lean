import StopArrivals.Proofs.Numerals
import StopArrivals.Time.ServiceTime

/-!
# Service times

A service time is read exactly when its text is three numerals between colons, with minutes and
seconds below sixty and no more seconds in all than 32 bits hold (`service_time_exact`). The sum is
over unbounded integers: where the reader stops because a product or a sum leaves its range, the
whole leaves it too, since nothing that is added is negative (`totalSeconds_eq_some_iff`).
-/

namespace StopArrivals

/-! ## The grammar of times -/

/-- Apart from white space around it, a text is three numerals with colons between them. -/
def WritesClock (cs : List Char) (h m s : Int) : Prop :=
  ∃ hour minute second, TrimsTo cs (hour ++ ':' :: (minute ++ ':' :: second)) ∧
    WritesInteger hour h ∧ WritesInteger minute m ∧ WritesInteger second s

/-- Hours, minutes and seconds that make a service time. The bound on the whole is one on the hours
too. -/
structure ClockInRange (h m s : Int) : Prop where
  hours : 0 ≤ h
  minutes : 0 ≤ m ∧ m ≤ 59
  seconds : 0 ≤ s ∧ s ≤ 59
  total : 3600 * h + 60 * m + s ≤ 2147483647

theorem fieldsOf_eq_three_iff {sep : Char} {cs a b c : List Char} :
    fieldsOf sep cs = [a, b, c] ↔
      (sep ∉ a ∧ sep ∉ b ∧ sep ∉ c) ∧ cs = a ++ sep :: (b ++ sep :: c) := by
  rw [fieldsOf_eq_iff]
  simp [joinFields, List.intercalate]

theorem WritesInteger.no_colon {cs : List Char} {v : Int} (h : WritesInteger cs v) : ':' ∉ cs := by
  intro hc
  rcases h.sign_or_digit hc with hplus | hminus | hdigit
  · exact absurd hplus (by decide)
  · exact absurd hminus (by decide)
  · exact absurd hdigit (by decide)

theorem writesClock_iff {cs : List Char} {h m s : Int} : WritesClock cs h m s ↔
    ∃ hour minute second, fieldsOf ':' (trimChars cs) = [hour, minute, second] ∧
      WritesInteger hour h ∧ WritesInteger minute m ∧ WritesInteger second s := by
  constructor
  · rintro ⟨hour, minute, second, htrim, hhour, hminute, hsecond⟩
    refine ⟨hour, minute, second, ?_, hhour, hminute, hsecond⟩
    rw [fieldsOf_eq_three_iff, htrim.trimChars_eq]
    exact ⟨⟨hhour.no_colon, hminute.no_colon, hsecond.no_colon⟩, rfl⟩
  · rintro ⟨hour, minute, second, hfields, hrest⟩
    obtain ⟨-, htrim⟩ := fieldsOf_eq_three_iff.mp hfields
    exact ⟨hour, minute, second, trimChars_eq_iff.mp htrim, hrest⟩

/-! ## Counting seconds -/

theorem IntRange.checked_eq_some_iff {r : IntRange} {v w : Int} :
    r.checked v = some w ↔ r.contains v = true ∧ v = w := by
  unfold IntRange.checked
  split <;> simp [*]

theorem totalSeconds_eq_some_iff {h m s v : Int} (hh : 0 ≤ h) (hm : 0 ≤ m) (hs : 0 ≤ s) :
    (((IntRange.signed 32).checked (h * 3600)).bind fun whole =>
      (IntRange.signed 32).checked (whole + (m * 60 + s))) = some v ↔
      3600 * h + 60 * m + s ≤ 2147483647 ∧ v = 3600 * h + 60 * m + s := by
  simp only [Option.bind_eq_some_iff, IntRange.checked_eq_some_iff, IntRange.contains_signed32]
  constructor
  · rintro ⟨whole, ⟨-, rfl⟩, hrange, rfl⟩
    omega
  · rintro ⟨htotal, rfl⟩
    exact ⟨h * 3600, ⟨by omega, rfl⟩, by omega, by omega⟩

theorem readServiceTime_of_fields {text : String} {hour minute second : List Char}
    (hfields : fieldsOf ':' (trimChars text.toList) = [hour, minute, second]) {v : Int} :
    readServiceTime text = some v ↔ ∃ h m s, WritesInteger hour h ∧ WritesInteger minute m ∧
      WritesInteger second s ∧ ClockInRange h m s ∧ v = 3600 * h + 60 * m + s := by
  unfold readServiceTime
  simp only [hfields, Option.bind_eq_bind, Option.bind_eq_some_iff, readSigned_eq_some_iff,
    IntRange.contains_signed32]
  constructor
  · rintro ⟨h, ⟨hhour, -⟩, m, ⟨hminute, -⟩, s, ⟨hsecond, -⟩, htotal⟩
    split at htotal
    · next hbounds =>
      obtain ⟨hh, hm, hm', hs, hs'⟩ := hbounds
      obtain ⟨hsum, rfl⟩ := (totalSeconds_eq_some_iff hh hm hs).mp htotal
      exact ⟨h, m, s, hhour, hminute, hsecond, ⟨hh, by omega, by omega, hsum⟩, rfl⟩
    · cases htotal
  · rintro ⟨h, m, s, hhour, hminute, hsecond, ⟨hh, hm, hs, hsum⟩, rfl⟩
    refine ⟨h, ⟨hhour, by omega⟩, m, ⟨hminute, by omega⟩, s, ⟨hsecond, by omega⟩, ?_⟩
    rw [if_pos (by omega)]
    exact (totalSeconds_eq_some_iff hh hm.1 hs.1).mpr ⟨hsum, rfl⟩

theorem readServiceTime_eq_some_iff {text : String} {v : Int} : readServiceTime text = some v ↔
    ∃ h m s, WritesClock text.toList h m s ∧ ClockInRange h m s ∧ v = 3600 * h + 60 * m + s := by
  simp only [writesClock_iff]
  constructor
  · intro hread
    have hthree : ∃ hour minute second,
        fieldsOf ':' (trimChars text.toList) = [hour, minute, second] := by
      unfold readServiceTime at hread
      split at hread
      · next hour minute second hfields => exact ⟨hour, minute, second, hfields⟩
      · cases hread
    obtain ⟨hour, minute, second, hfields⟩ := hthree
    obtain ⟨h, m, s, hhour, hminute, hsecond, hrest⟩ := (readServiceTime_of_fields hfields).mp hread
    exact ⟨h, m, s, ⟨hour, minute, second, hfields, hhour, hminute, hsecond⟩, hrest⟩
  · rintro ⟨h, m, s, ⟨hour, minute, second, hfields, hhour, hminute, hsecond⟩, hrest⟩
    exact (readServiceTime_of_fields hfields).mpr ⟨h, m, s, hhour, hminute, hsecond, hrest⟩

/-! ## Writing times -/

/-- Seconds as hours, minutes and seconds, each in at least so many digits. -/
def clockText (hourWidth minuteWidth secondWidth seconds : Nat) : String :=
  String.ofList (paddedChars hourWidth (seconds / 3600) ++
    ':' :: (paddedChars minuteWidth (seconds / 60 % 60) ++
      ':' :: paddedChars secondWidth (seconds % 60)))

theorem writesClock_clockText (hourWidth minuteWidth secondWidth seconds : Nat) :
    WritesClock (clockText hourWidth minuteWidth secondWidth seconds).toList
      (seconds / 3600 : Nat) (seconds / 60 % 60 : Nat) (seconds % 60 : Nat) := by
  have hhour := WritesInteger.plain (writesNatural_padded hourWidth (seconds / 3600))
  have hminute := WritesInteger.plain (writesNatural_padded minuteWidth (seconds / 60 % 60))
  have hsecond := WritesInteger.plain (writesNatural_padded secondWidth (seconds % 60))
  refine ⟨_, _, _, ?_, hhour, hminute, hsecond⟩
  rw [clockText, String.toList_ofList]
  refine trimsTo_of_not_blank fun c hc => ?_
  simp only [List.mem_append, List.mem_cons] at hc
  rcases hc with hc | rfl | hc | rfl | hc
  · exact hhour.not_blank hc
  · rfl
  · exact hminute.not_blank hc
  · rfl
  · exact hsecond.not_blank hc

/-- A service time is read exactly from three numerals within their bounds, as their sum in seconds;
and every number of seconds that 32 bits hold is read from its hours, minutes and seconds, with
however many zeros in front of each. -/
theorem service_time_exact :
    (∀ text v, readServiceTime text = some v ↔ ∃ h m s, WritesClock text.toList h m s ∧
      ClockInRange h m s ∧ v = 3600 * h + 60 * m + s) ∧
    ∀ seconds ≤ 2147483647, ∀ hourWidth minuteWidth secondWidth,
      readServiceTime (clockText hourWidth minuteWidth secondWidth seconds) =
        some (seconds : Int) := by
  refine ⟨fun _ _ => readServiceTime_eq_some_iff, ?_⟩
  intro seconds hseconds hourWidth minuteWidth secondWidth
  refine readServiceTime_eq_some_iff.mpr
    ⟨_, _, _, writesClock_clockText hourWidth minuteWidth secondWidth seconds, ?_, ?_⟩
  · constructor <;> omega
  · omega

/-- The last second that 32 bits hold, with zeros in front of the hours. -/
theorem service_time_exact_of_last_second :
    2147483647 ≤ 2147483647 ∧ clockText 8 2 2 2147483647 = "00596523:14:07" ∧
      readServiceTime "00596523:14:07" = some 2147483647 := by
  have hbound : 2147483647 ≤ 2147483647 := Nat.le_refl _
  have htext : clockText 8 2 2 2147483647 = "00596523:14:07" := by decide
  refine ⟨hbound, htext, ?_⟩
  rw [← htext]
  exact service_time_exact.2 2147483647 hbound 8 2 2

-- One second more, within the same hour, is too many.
example : readServiceTime "596523:14:07" = some 2147483647 ∧
    readServiceTime "596523:14:08" = none := by
  decide

end StopArrivals
