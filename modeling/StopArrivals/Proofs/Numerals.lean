import Mathlib.Algebra.Group.Int.Defs
import Mathlib.Algebra.Group.Nat.Defs
import StopArrivals.Text.Blank
import StopArrivals.Text.Decimal
import StopArrivals.Text.Utf8

/-!
# Decimal numerals

The readers of integers by the texts that they accept. `WritesInteger` says of a text which integer
it is the decimal numeral of, without reading it from one end to the other. Zeros in front of a
numeral change nothing, so a number may be written as wide as one likes (`writesNatural_padded`).
-/

namespace StopArrivals

/-! ## What a numeral is -/

/-- Nothing but ASCII digits, and at least one of them. -/
structure WritesNatural (ds : List Char) (n : Nat) : Prop where
  someDigit : ds ≠ []
  digits : ∀ c ∈ ds, c.isDigit = true
  value : Nat.ofDigitChars 10 ds 0 = n

/-- Digits with at most one sign in front. -/
inductive WritesInteger : List Char → Int → Prop
  | plain {ds : List Char} {n : Nat} (h : WritesNatural ds n) : WritesInteger ds n
  | plus {ds : List Char} {n : Nat} (h : WritesNatural ds n) : WritesInteger ('+' :: ds) n
  | minus {ds : List Char} {n : Nat} (h : WritesNatural ds n) : WritesInteger ('-' :: ds) (-n)

/-- Digits with at most a plus sign in front, for a number of the given width. -/
inductive WritesUnsigned (width : Nat) : List Char → Nat → Prop
  | plain {ds : List Char} {n : Nat} (h : WritesNatural ds n) (hwidth : n < 2 ^ width) :
    WritesUnsigned width ds n
  | plus {ds : List Char} {n : Nat} (h : WritesNatural ds n) (hwidth : n < 2 ^ width) :
    WritesUnsigned width ('+' :: ds) n

/-- The numeral of an integer in two's complement of the given width. -/
structure WritesSigned (width : Nat) (cs : List Char) (v : Int) : Prop where
  numeral : WritesInteger cs v
  low : -(2 : Int) ^ (width - 1) ≤ v
  high : v < (2 : Int) ^ (width - 1)

/-! ## Digits -/

theorem isBlank_of_isDigit {c : Char} (h : c.isDigit = true) : isBlank c = false := by
  simp only [Char.isDigit, ge_iff_le, Bool.and_eq_true, decide_eq_true_eq, UInt32.le_iff_toNat_le]
    at h
  have hrange : 48 ≤ c.toNat ∧ c.toNat ≤ 57 := h
  simp only [isBlank, Bool.or_eq_false_iff, Bool.and_eq_false_iff, decide_eq_false_iff_not,
    beq_eq_false_iff_ne]
  omega

namespace WritesNatural

variable {ds : List Char} {n : Nat}

theorem trimStartChars_eq (h : WritesNatural ds n) (rest : List Char) :
    trimStartChars (ds ++ rest) = ds ++ rest := by
  have hnone : ([] : List Char).all isBlank = true := rfl
  refine trimStartChars_append hnone fun c hc => ?_
  cases ds with
  | nil => exact absurd rfl h.someDigit
  | cons d ds =>
    obtain rfl := Option.some.inj hc
    exact isBlank_of_isDigit (h.digits _ List.mem_cons_self)

theorem lt (h : WritesNatural ds n) : n < 10 ^ ds.length := by
  obtain ⟨-, hdigits, rfl⟩ := h
  induction ds with
  | nil => exact Nat.one_pos
  | cons c cs ih =>
    have hrest := ih fun d hd => hdigits d (List.mem_cons_of_mem _ hd)
    have hdigit := hdigits c List.mem_cons_self
    simp only [Char.isDigit, ge_iff_le, Bool.and_eq_true, decide_eq_true_eq,
      UInt32.le_iff_toNat_le] at hdigit
    have hnine : c.toNat - '0'.toNat ≤ 9 := Nat.sub_le_sub_right hdigit.2 48
    rw [Nat.ofDigitChars_cons, Nat.ofDigitChars_eq_ofDigitChars_zero, List.length_cons,
      Nat.pow_succ, Nat.mul_zero, Nat.zero_add]
    have hfirst := Nat.mul_le_mul_left (10 ^ cs.length) hnine
    omega

/-- A digit takes one byte. -/
theorem utf8Length_eq (h : WritesNatural ds n) : utf8Length ds = ds.length := by
  obtain ⟨-, hdigits, -⟩ := h
  induction ds with
  | nil => rfl
  | cons c cs ih =>
    have hsize : c.utf8Size = 1 := by
      have hdigit := hdigits c List.mem_cons_self
      simp only [Char.isDigit, ge_iff_le, Bool.and_eq_true, decide_eq_true_eq] at hdigit
      unfold Char.utf8Size
      exact if_pos (UInt32.le_trans hdigit.2 (by decide))
    rw [utf8Length, hsize, ih fun d hd => hdigits d (List.mem_cons_of_mem _ hd), List.length_cons,
      Nat.add_comm]

/-- The first of two numerals side by side counts as many tens as the second one has digits. -/
theorem append {es : List Char} {m : Nat} (hd : WritesNatural ds n) (he : WritesNatural es m) :
    WritesNatural (ds ++ es) (n * 10 ^ es.length + m) where
  someDigit := fun hnil => hd.someDigit (List.append_eq_nil_iff.mp hnil).1
  digits := by
    intro c hc
    rcases List.mem_append.mp hc with hc | hc
    · exact hd.digits c hc
    · exact he.digits c hc
  value := by
    rw [Nat.ofDigitChars_append, hd.value, Nat.ofDigitChars_eq_ofDigitChars_zero, he.value,
      Nat.mul_comm]

end WritesNatural

/-! ## What is read -/

theorem readNatural_eq_some_iff {cs : List Char} {n : Nat} :
    readNatural cs = some n ↔ WritesNatural cs n := by
  constructor
  · intro h
    unfold readNatural at h
    split at h
    · next hcs => exact ⟨hcs.1, List.all_eq_true.mp hcs.2, Option.some.inj h⟩
    · cases h
  · rintro ⟨hsome, hdigits, rfl⟩
    exact if_pos ⟨hsome, List.all_eq_true.mpr hdigits⟩

/-- The reader behind a minus sign turns the number it has read into an integer first. -/
theorem readNegative_eq_some_iff {cs : List Char} {v : Int} :
    readInteger ('-' :: cs) = some v ↔ ∃ n, WritesNatural cs n ∧ v = -(n : Int) := by
  show (((readNatural cs).bind fun n => some (n : Int)).map fun n => -n) = some v ↔ _
  simp only [Option.map_eq_some_iff, Option.bind_eq_some_iff, readNatural_eq_some_iff]
  constructor
  · rintro ⟨_, ⟨n, hn, hcast⟩, rfl⟩
    obtain rfl := Option.some.inj hcast
    exact ⟨n, hn, rfl⟩
  · rintro ⟨n, hn, rfl⟩
    exact ⟨n, ⟨n, hn, rfl⟩, rfl⟩

theorem readInteger_eq_some_iff {cs : List Char} {v : Int} :
    readInteger cs = some v ↔ WritesInteger cs v := by
  constructor
  · intro h
    unfold readInteger at h
    split at h
    · obtain ⟨n, hn, rfl⟩ := Option.map_eq_some_iff.mp h
      exact .plus (readNatural_eq_some_iff.mp hn)
    · obtain ⟨n, hn, rfl⟩ := readNegative_eq_some_iff.mp h
      exact .minus hn
    · obtain ⟨n, hn, rfl⟩ := Option.map_eq_some_iff.mp h
      exact .plain (readNatural_eq_some_iff.mp hn)
  · rintro (hwrites | hwrites | hwrites)
    · cases cs with
      | nil => exact absurd rfl hwrites.someDigit
      | cons c ds =>
        rw [readInteger_of_isDigit (hwrites.digits c List.mem_cons_self),
          readNatural_eq_some_iff.mpr hwrites]
        rfl
    · exact Option.map_eq_some_iff.mpr ⟨_, readNatural_eq_some_iff.mpr hwrites, rfl⟩
    · exact readNegative_eq_some_iff.mpr ⟨_, hwrites, rfl⟩

theorem writesInteger_integerChars (v : Int) : WritesInteger (integerChars v) v :=
  readInteger_eq_some_iff.mp (readInteger_integerChars v)

theorem readSigned_eq_some_iff {width : Nat} {cs : List Char} {v : Int} :
    readSigned width cs = some v ↔
      WritesInteger cs v ∧ (IntRange.signed width).contains v = true := by
  rw [readSigned, Option.filter_eq_some_iff, readInteger_eq_some_iff]

theorem readUnsigned_eq_some_iff {width : Nat} {cs : List Char} {n : Nat} :
    readUnsigned width cs = some n ↔ WritesUnsigned width cs n := by
  have hfilter (ds : List Char) : (readNatural ds).filter (· < 1 <<< width) = some n ↔
      WritesNatural ds n ∧ n < 2 ^ width := by
    rw [Option.filter_eq_some_iff, readNatural_eq_some_iff, decide_eq_true_iff, Nat.one_shiftLeft]
  constructor
  · intro h
    unfold readUnsigned at h
    split at h
    · obtain ⟨hn, hwidth⟩ := (hfilter _).mp h
      exact .plus hn hwidth
    · obtain ⟨hn, hwidth⟩ := (hfilter _).mp h
      exact .plain hn hwidth
  · rintro (⟨hn, hwidth⟩ | ⟨hn, hwidth⟩)
    · unfold readUnsigned
      split
      · -- A sign is no digit.
        cases hn.digits '+' List.mem_cons_self
      · exact (hfilter _).mpr ⟨hn, hwidth⟩
    · exact (hfilter _).mpr ⟨hn, hwidth⟩

theorem writesInteger_of_readUnsigned {width n : Nat} {cs : List Char}
    (h : readUnsigned width cs = some n) : WritesInteger cs n := by
  rcases readUnsigned_eq_some_iff.mp h with ⟨hn, -⟩ | ⟨hn, -⟩
  · exact .plain hn
  · exact .plus hn

theorem readSigned_eq_some_iff_writes {width : Nat} {cs : List Char} {v : Int} :
    readSigned width cs = some v ↔ WritesSigned width cs v := by
  have hpow : ((1 <<< (width - 1) : Nat) : Int) = 2 ^ (width - 1) := by
    rw [Nat.one_shiftLeft, Int.natCast_pow]
    rfl
  have hrange : (IntRange.signed width).contains v = true ↔
      -(2 : Int) ^ (width - 1) ≤ v ∧ v < (2 : Int) ^ (width - 1) := by
    rw [IntRange.contains_iff, IntRange.signed, hpow, Int.le_sub_one_iff]
  rw [readSigned_eq_some_iff, hrange]
  exact ⟨fun ⟨hv, hlow, hhigh⟩ => ⟨hv, hlow, hhigh⟩, fun h => ⟨h.numeral, h.low, h.high⟩⟩

theorem IntRange.contains_signed32 {v : Int} : (IntRange.signed 32).contains v = true ↔
    -2147483648 ≤ v ∧ v ≤ 2147483647 := IntRange.contains_iff

/-! ## The characters of a numeral -/

theorem WritesInteger.sign_or_digit {cs : List Char} {v : Int} (h : WritesInteger cs v) {c : Char}
    (hc : c ∈ cs) : c = '+' ∨ c = '-' ∨ c.isDigit = true := by
  rcases h with h | h | h
  · exact .inr (.inr (h.digits c hc))
  · rcases List.mem_cons.mp hc with rfl | hc
    · exact .inl rfl
    · exact .inr (.inr (h.digits c hc))
  · rcases List.mem_cons.mp hc with rfl | hc
    · exact .inr (.inl rfl)
    · exact .inr (.inr (h.digits c hc))

theorem WritesInteger.not_blank {cs : List Char} {v : Int} (h : WritesInteger cs v) {c : Char}
    (hc : c ∈ cs) : isBlank c = false := by
  rcases h.sign_or_digit hc with rfl | rfl | hdigit
  · rfl
  · rfl
  · exact isBlank_of_isDigit hdigit

theorem WritesInteger.ne_nil {cs : List Char} {v : Int} (h : WritesInteger cs v) : cs ≠ [] := by
  rcases h with h | h | h
  · exact h.someDigit
  · exact List.cons_ne_nil _ _
  · exact List.cons_ne_nil _ _

theorem WritesInteger.not_blankText {s : String} {v : Int} (h : WritesInteger s.toList v) :
    isBlankText s = false := by
  obtain ⟨c, hc⟩ := List.exists_mem_of_ne_nil _ h.ne_nil
  exact not_blank_of_mem hc (h.not_blank hc)

/-! ## Blank texts -/

theorem readSigned_of_blank {width : Nat} {s : String} (h : isBlankText s = true) :
    readSigned width s.toList = none := by
  rw [Option.eq_none_iff_forall_ne_some]
  intro v hv
  have hnot := (readSigned_eq_some_iff.mp hv).1.not_blankText
  rw [h] at hnot
  cases hnot

theorem readUnsigned_of_blank {width : Nat} {s : String} (h : isBlankText s = true) :
    readUnsigned width s.toList = none := by
  rw [Option.eq_none_iff_forall_ne_some]
  intro n hn
  have hnot := (writesInteger_of_readUnsigned hn).not_blankText
  rw [h] at hnot
  cases hnot

/-! ## Zeros in front -/

/-- A number in at least as many digits as asked for. -/
def paddedChars (width n : Nat) : List Char :=
  List.replicate (width - (naturalChars n).length) '0' ++ naturalChars n

theorem writesNatural_padded (width n : Nat) : WritesNatural (paddedChars width n) n where
  someDigit := by simp [paddedChars, naturalChars]
  digits := by
    intro c hc
    rcases List.mem_append.mp hc with hc | hc
    · obtain rfl := List.eq_of_mem_replicate hc
      rfl
    · exact Nat.isDigit_of_mem_toDigits (by decide) (by decide) hc
  value := by
    rw [paddedChars, Nat.ofDigitChars_append, Nat.ofDigitChars_replicate_zero, Nat.mul_zero,
      naturalChars, Nat.ofDigitChars_toDigits (by decide) (by decide)]

end StopArrivals
