import Mathlib.Data.List.TakeWhile
import StopArrivals.Extraction
import StopArrivals.Proofs.Numerals

/-!
# Service dates

A service date is read exactly from eight digits that name a day of the calendar
(`start_date_exact`). Two readers must agree on it, and neither would do alone. The reader of days
skips white space before each number and takes a year with a sign; the reader of integers takes a
sign too, but no white space. Eight digits are read by both (`read?_of_digits`), and a sign before
them leaves the reader of days no digits for the month (`read?_of_sign`).
-/

namespace StopArrivals

/-! ## The calendar -/

def IsLeap (year : Nat) : Prop := (4 ∣ year ∧ ¬100 ∣ year) ∨ 400 ∣ year

/-- A day that there is, with the Gregorian calendar carried back to the year zero. -/
structure RealDay (year month day : Nat) : Prop where
  months : 1 ≤ month ∧ month ≤ 12
  days : 1 ≤ day ∧ day ≤ 31
  shortMonth : month = 4 ∨ month = 6 ∨ month = 9 ∨ month = 11 → day ≤ 30
  february : month = 2 → day ≤ 29
  leapDay : month = 2 → day = 29 → IsLeap year

namespace CalendarDay

/-- The number YYYYMMDD of a day. -/
def number (d : CalendarDay) : Int := d.year * 10000 + d.month * 100 + d.day

theorem isLeapYear_iff {year : Nat} : isLeapYear year = true ↔ IsLeap year := by
  simp only [isLeapYear, IsLeap, Bool.and_eq_true, Bool.or_eq_true, decide_eq_true_eq]
  omega

/-- The length of a month by its kind. -/
theorem daysInMonth_eq {year : Int} {month : Nat} : daysInMonth year month =
    if month = 2 then if isLeapYear year then 29 else 28
    else if month = 4 ∨ month = 6 ∨ month = 9 ∨ month = 11 then 30
    else if 1 ≤ month ∧ month ≤ 12 then 31
    else 0 := by
  unfold daysInMonth
  split
  any_goals rfl
  simp only [imp_false] at *
  rw [if_neg, if_neg, if_neg] <;> omega

theorem isReal_iff {year month day : Nat} :
    (⟨year, month, day⟩ : CalendarDay).isReal = true ↔ RealDay year month day := by
  simp only [isReal, Bool.and_eq_true, decide_eq_true_eq, daysInMonth_eq]
  constructor
  · rintro ⟨hfirst, hlast⟩
    split at hlast
    · split at hlast
      · next hleap =>
        exact ⟨by omega, by omega, by omega, fun _ => hlast, fun _ _ => isLeapYear_iff.mp hleap⟩
      · exact ⟨by omega, by omega, by omega, by omega, by omega⟩
    · split at hlast
      · exact ⟨by omega, by omega, by omega, by omega, by omega⟩
      · split at hlast
        · exact ⟨by omega, by omega, by omega, by omega, by omega⟩
        · omega
  · rintro ⟨hmonth, ⟨hfirst, hlast⟩, hshort, hfebruary, hleap⟩
    refine ⟨hfirst, ?_⟩
    simp only [hmonth, and_self, if_true]
    split
    · next htwo =>
      have hmost := hfebruary htwo
      split
      · exact hmost
      · next hyear =>
        have hday : day ≠ 29 := fun h => hyear (isLeapYear_iff.mpr (hleap htwo h))
        omega
    · split
      · next hthirty => exact hshort hthirty
      · exact hlast

/-! ## Reading a day from digits -/

section

variable {ys ms ds : List Char} {year month day : Nat}

/-- As many digits are read as there may be. -/
theorem readUpTo_of_digits (h : WritesNatural ds day) (rest : List Char) :
    readUpTo ds.length (ds ++ rest) = some (day, rest) := by
  have hall : ds.takeWhile Char.isDigit = ds := List.takeWhile_eq_self_iff.mpr h.digits
  unfold readUpTo
  dsimp only
  rw [List.take_left, hall, if_neg h.someDigit, List.drop_left, h.value]

theorem readYear_of_digits (h : WritesNatural ys year) (hlength : ys.length = 4)
    (rest : List Char) : readYear (ys ++ rest) = some ((year : Int), rest) := by
  have hread := readUpTo_of_digits h rest
  rw [hlength] at hread
  unfold readYear
  rw [h.trimStartChars_eq]
  -- A digit is no sign, so the year is read in four digits.
  cases ys with
  | nil => exact absurd rfl h.someDigit
  | cons c ys =>
    have hdigit := h.digits c List.mem_cons_self
    split
    · next hsign =>
      obtain rfl := (List.cons.inj hsign).1
      exact absurd hdigit (by decide)
    · next hsign =>
      obtain rfl := (List.cons.inj hsign).1
      exact absurd hdigit (by decide)
    · rw [hread]
      rfl

theorem readTwo_of_digits (h : WritesNatural ds day) (hlength : ds.length = 2)
    (rest : List Char) : readTwo (ds ++ rest) = some (day, rest) := by
  have hread := readUpTo_of_digits h rest
  rw [hlength] at hread
  unfold readTwo
  rw [h.trimStartChars_eq, hread]

theorem read?_of_digits (hyear : WritesNatural ys year) (hys : ys.length = 4)
    (hmonth : WritesNatural ms month) (hms : ms.length = 2)
    (hday : WritesNatural ds day) (hds : ds.length = 2) :
    read? (ys ++ (ms ++ ds)) =
      if (⟨year, month, day⟩ : CalendarDay).isReal then some ⟨year, month, day⟩ else none := by
  have hlast := readTwo_of_digits hday hds []
  rw [List.append_nil] at hlast
  unfold read?
  rw [readYear_of_digits hyear hys]
  simp only [Option.bind_eq_bind, Option.bind_some, readTwo_of_digits hmonth hms, hlast, true_and]

/-- A sign takes all digits for the year, and no month is left. -/
theorem read?_of_sign {sign : Char} (hsign : sign = '+' ∨ sign = '-') (h : WritesNatural ds day) :
    read? (sign :: ds) = none := by
  have hread := readUpTo_of_digits h []
  rw [List.append_nil] at hread
  have hyear : ∃ year, readYear (sign :: ds) = some (year, []) := by
    rcases hsign with rfl | rfl
    · refine ⟨(day : Int), ?_⟩
      show (readUpTo ds.length ds).map _ = _
      rw [hread]
      rfl
    · refine ⟨-(day : Int), ?_⟩
      show (readUpTo ds.length ds).map _ = _
      rw [hread]
      rfl
  obtain ⟨year, hyear⟩ := hyear
  unfold read?
  rw [hyear]
  rfl

end

end CalendarDay

/-! ## Dates -/

/-- Eight digits: four for the year and two each for the month and the day of a day that there
is. -/
inductive WritesDay : List Char → Nat → Prop
  | digits {ys ms ds : List Char} {year month day n : Nat}
      (hyear : WritesNatural ys year) (hys : ys.length = 4)
      (hmonth : WritesNatural ms month) (hms : ms.length = 2)
      (hday : WritesNatural ds day) (hds : ds.length = 2)
      (hreal : RealDay year month day) (hn : WritesNatural (ys ++ (ms ++ ds)) n) :
      WritesDay (ys ++ (ms ++ ds)) n

theorem exists_parts {cs : List Char} {n : Nat} (h : WritesNatural cs n) (hlength : cs.length = 8) :
    ∃ ys ms ds year month day, (WritesNatural ys year ∧ ys.length = 4) ∧
      (WritesNatural ms month ∧ ms.length = 2) ∧ (WritesNatural ds day ∧ ds.length = 2) ∧
      cs = ys ++ (ms ++ ds) := by
  have hpart {l : List Char} (hl : 0 < l.length) (hsub : ∀ c ∈ l, c ∈ cs) :
      WritesNatural l (Nat.ofDigitChars 10 l 0) :=
    ⟨List.ne_nil_of_length_pos hl, fun c hc => h.digits c (hsub c hc), rfl⟩
  have hys : (cs.take 4).length = 4 := by simp [hlength]
  have hms : ((cs.drop 4).take 2).length = 2 := by simp [hlength]
  have hds : ((cs.drop 4).drop 2).length = 2 := by simp [hlength]
  refine ⟨cs.take 4, (cs.drop 4).take 2, (cs.drop 4).drop 2, _, _, _,
    ⟨hpart (by omega) fun c => List.mem_of_mem_take, hys⟩,
    ⟨hpart (by omega) fun c hc => List.mem_of_mem_drop (List.mem_of_mem_take hc), hms⟩,
    ⟨hpart (by omega) fun c hc => List.mem_of_mem_drop (List.mem_of_mem_drop hc), hds⟩, ?_⟩
  rw [List.take_append_drop, List.take_append_drop]

theorem readServiceDate_eq_some_iff {cs : List Char} {v : Int} :
    readServiceDate cs = some v ↔ ∃ n, WritesDay cs n ∧ v = n := by
  constructor
  · intro h
    unfold readServiceDate at h
    split at h
    · next hcs =>
      obtain ⟨hbytes, hday⟩ := hcs
      rcases (readSigned_eq_some_iff.mp h).1 with hn | hn | hn
      · rw [hn.utf8Length_eq] at hbytes
        obtain ⟨ys, ms, ds, year, month, day, ⟨hyear, hys⟩, ⟨hmonth, hms⟩, ⟨hd, hds⟩, rfl⟩ :=
          exists_parts hn hbytes
        rw [CalendarDay.read?_of_digits hyear hys hmonth hms hd hds] at hday
        have hreal : RealDay year month day := by
          by_contra hnot
          rw [if_neg fun hreal => hnot (CalendarDay.isReal_iff.mp hreal)] at hday
          cases hday
        exact ⟨_, .digits hyear hys hmonth hms hd hds hreal hn, rfl⟩
      · rw [CalendarDay.read?_of_sign (.inl rfl) hn] at hday
        cases hday
      · rw [CalendarDay.read?_of_sign (.inr rfl) hn] at hday
        cases hday
    · cases h
  · rintro ⟨n, ⟨hyear, hys, hmonth, hms, hday, hds, hreal, hn⟩, rfl⟩
    next ys ms ds year month day =>
    have hlength : (ys ++ (ms ++ ds)).length = 8 := by simp [hys, hms, hds]
    have hbound := hn.lt
    rw [hlength] at hbound
    unfold readServiceDate
    rw [if_pos, readSigned_eq_some_iff, IntRange.contains_signed32]
    · exact ⟨.plain hn, by omega⟩
    · refine ⟨by rw [hn.utf8Length_eq, hlength], ?_⟩
      rw [CalendarDay.read?_of_digits hyear hys hmonth hms hday hds,
        if_pos (CalendarDay.isReal_iff.mpr hreal)]
      rfl

theorem exists_day_of_readServiceDate {cs : List Char} {v : Int} (h : readServiceDate cs = some v) :
    ∃ d : CalendarDay, d.isReal = true ∧ 0 ≤ d.year ∧ d.year ≤ 9999 ∧ d.number = v := by
  obtain ⟨n, ⟨hyear, hys, hmonth, hms, hday, hds, hreal, hn⟩, rfl⟩ :=
    readServiceDate_eq_some_iff.mp h
  next ys ms ds year month day =>
  have hbound := hyear.lt
  rw [hys] at hbound
  have hvalue := hn.value.symm.trans (hyear.append (hmonth.append hday)).value
  rw [List.length_append, hms, hds] at hvalue
  refine ⟨⟨year, month, day⟩, CalendarDay.isReal_iff.mpr hreal, ?_⟩
  simp only [CalendarDay.number]
  omega

/-! ## Dates in values -/

/-- The text in which a value may hold a date: a text without the white space around it, or the
digits of an integer of 64 bits. -/
inductive DateText : Json → List Char → Prop
  | text {s : String} {core : List Char} (h : TrimsTo s.toList core) : DateText (.text s) core
  | integer {v : Int} (h : (IntRange.signed 64).contains v = true) :
      DateText (.number (.integer v)) (integerChars v)

theorem startDateOf?_eq_some_iff {value : Json} {v : Int} : startDateOf? value = some v ↔
    ∃ cs, DateText value cs ∧ readServiceDate cs = some v := by
  constructor
  · intro h
    cases value with
    | text s => exact ⟨_, .text (trimsTo_trimChars s.toList), h⟩
    | number number =>
      obtain ⟨i, hi, hread⟩ := Option.bind_eq_some_iff.mp h
      cases number with
      | integer j =>
        change (if (IntRange.signed 64).contains j then some j else none) = some i at hi
        split at hi
        · next hrange =>
          obtain rfl := Option.some.inj hi
          exact ⟨_, .integer hrange, hread⟩
        · cases hi
      | float => cases hi
    | null | bool | list | object => cases h
  · rintro ⟨cs, htext | hrange, hread⟩
    · rw [startDateOf?, htext.trimChars_eq, hread]
    · rw [startDateOf?, Number.int64?, if_pos hrange, Option.bind_some, hread]

/-- A value is read as a date exactly if its text is the eight digits of a day that there is, and
then as the number that they write. -/
theorem start_date_exact (value : Json) :
    (∀ v, startDateOf? value = some v ↔ ∃ cs n, DateText value cs ∧ WritesDay cs n ∧ v = n) ∧
      (startDateOf? value = none ↔ ¬∃ cs n, DateText value cs ∧ WritesDay cs n) := by
  have hsome : ∀ v : Int,
      startDateOf? value = some v ↔ ∃ cs n, DateText value cs ∧ WritesDay cs n ∧ v = n := by
    intro v
    simp only [startDateOf?_eq_some_iff, readServiceDate_eq_some_iff, exists_and_left]
  refine ⟨hsome, ?_⟩
  rw [Option.eq_none_iff_forall_ne_some]
  constructor
  · rintro hnone ⟨cs, n, htext, hday⟩
    exact hnone n ((hsome n).mpr ⟨cs, n, htext, hday, rfl⟩)
  · intro hnot v hv
    obtain ⟨cs, n, htext, hday, -⟩ := (hsome v).mp hv
    exact hnot ⟨cs, n, htext, hday⟩

/-- The reader of days alone would take these for the eighth of May. -/
example : (CalendarDay.read? "2023 5 8".toList).isSome ∧ (CalendarDay.read? "+999 5 8".toList).isSome ∧
    startDateOf? (.text "2023 5 8") = none ∧ startDateOf? (.text "+999 5 8") = none := by
  decide

end StopArrivals
