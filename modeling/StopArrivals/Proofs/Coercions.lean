import StopArrivals.Proofs.ServiceDates
import StopArrivals.Proofs.ServiceTimes

/-!
# What values are read as

The columns of a row and the members of a prediction hold values of any kind. What is read from them
is of use only because of what it can be: a text that is not blank, a direction of zero or one, a
day that there is, a time of day that is not negative, an integer of 64 bits. Each reader comes with
the one lemma that says so, and later proofs need no more of it than that.
-/

namespace StopArrivals

/-! ## Integers -/

theorem IntRange.contains_signed64 {v : Int} : (IntRange.signed 64).contains v = true ↔
    -9223372036854775808 ≤ v ∧ v ≤ 9223372036854775807 := IntRange.contains_iff

/-- Whatever an integer is read from, it has 64 bits. -/
theorem contains_of_integerOf? {value : Json} {v : Int} (h : integerOf? value = some v) :
    (IntRange.signed 64).contains v = true := by
  cases value with
  | number n =>
    rcases Option.or_eq_some_iff.mp h with hint | ⟨-, hfloat⟩
    · unfold Number.int64? at hint
      split at hint
      · split at hint
        · next hrange =>
          obtain rfl := Option.some.inj hint
          exact hrange
        · cases hint
      · cases hint
    · obtain ⟨x, -, hx⟩ := Option.bind_eq_some_iff.mp hfloat
      unfold truncated? at hx
      dsimp only at hx
      split at hx
      · next hsize =>
        obtain rfl := Option.some.inj hx
        have hbits : (1 : Nat) <<< 63 = 9223372036854775808 := rfl
        rw [IntRange.contains_signed64]
        omega
      · cases hx
  | text s => exact (readSigned_eq_some_iff.mp h).2
  | null | bool | list | object => cases h

theorem zero_or_one_of_directionOf? {value : Json} {v : Int} (h : directionOf? value = some v) :
    v = 0 ∨ v = 1 := by
  obtain ⟨-, hv⟩ := Option.filter_eq_some_iff.mp h
  simpa using hv

/-! ## Text -/

theorem not_blank_integerText (v : Int) : isBlankText (integerText v) = false := by
  have hwrites : WritesInteger (integerText v).toList v := by
    rw [integerText, String.toList_ofList]
    exact writesInteger_integerChars v
  exact hwrites.not_blankText

/-- A floating-point number is printed with a point or with an exponent. -/
theorem not_blank_shortest (x : Binary64) : isBlankText (Shortest.text x) = false := by
  have hbody : ∀ (sign : String) (cs : List Char), (∃ c ∈ cs, isBlank c = false) →
      isBlankText (sign ++ String.ofList cs) = false := by
    rintro sign cs ⟨c, hc, hblank⟩
    unfold isBlankText
    rw [String.toList_append, String.toList_ofList, List.all_append, not_blank_of_mem hc hblank,
      Bool.and_false]
  unfold Shortest.text
  dsimp only
  split
  · exact hbody _ ['0', '.', '0'] ⟨'.', by simp, rfl⟩
  · refine hbody _ _ ?_
    split
    · refine ⟨'.', ?_, rfl⟩
      split
      · simp
      · split <;> simp
    · exact ⟨'e', by simp, rfl⟩

theorem not_blank_of_textOf? {value : Json} {s : String} (h : textOf? value = some s) :
    isBlankText s = false := by
  cases value with
  | text t =>
    change (if isBlankText t then none else some t) = some s at h
    split at h
    · cases h
    · next hblank =>
      obtain rfl := Option.some.inj h
      exact Bool.eq_false_iff.mpr hblank
  | number n =>
    obtain rfl := Option.some.inj h
    cases n with
    | integer v => exact not_blank_integerText v
    | float x => exact not_blank_shortest x
  | null | bool | list | object => cases h

/-! ## Service times -/

theorem nonneg_of_readServiceTime {s : String} {v : Int} (h : readServiceTime s = some v) :
    0 ≤ v := by
  obtain ⟨hours, minutes, seconds, -, hrange, rfl⟩ := readServiceTime_eq_some_iff.mp h
  have := hrange.hours
  have := hrange.minutes
  have := hrange.seconds
  omega

theorem nonneg_of_startTimeOf? {value : Json} {v : Int} (h : startTimeOf? value = some v) :
    0 ≤ v := by
  cases value with
  | text s => exact nonneg_of_readServiceTime h
  | null | bool | number | list | object => cases h

/-! ## Service dates -/

theorem exists_day_of_startDateOf? {value : Json} {v : Int} (h : startDateOf? value = some v) :
    ∃ d : CalendarDay, d.isReal = true ∧ 0 ≤ d.year ∧ d.year ≤ 9999 ∧ d.number = v := by
  obtain ⟨cs, -, hread⟩ := startDateOf?_eq_some_iff.mp h
  exact exists_day_of_readServiceDate hread

end StopArrivals
