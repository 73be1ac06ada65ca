import Mathlib.Data.String.Basic
import StopArrivals.Text.Utf8

/-!
# The order of texts by their bytes

Texts are ordered by their characters, and the UTF-8 form of a text by its bytes. The two orders are
the same (`compare_utf8`): of two characters the lesser one has the lesser byte at the first place
where their forms differ, and neither form is the beginning of the other.
-/

namespace StopArrivals

theorem utf8_inj {s t : String} : utf8 s = utf8 t ↔ s = t := by
  rw [utf8, utf8, Array.toList_inj, ← ByteArray.ext_iff, String.toByteArray_inj]

theorem ofNat_eq_ofNat_iff {m n : Nat} (hm : m < UInt8.size) (hn : n < UInt8.size) :
    UInt8.ofNat m = UInt8.ofNat n ↔ m = n := by
  rw [← UInt8.toNat_inj, UInt8.toNat_ofNat_of_lt' hm, UInt8.toNat_ofNat_of_lt' hn]

theorem charCode_lt (c : Char) : c.val.toNat < 1114112 := by
  have := c.valid
  simp only [UInt32.isValidChar, Nat.isValidChar] at this
  omega

/-- A lesser character has a lesser form, whatever follows. -/
theorem encode_lt_encode {c d : Char} (h : c < d) (us vs : List UInt8) :
    String.utf8EncodeChar c ++ us < String.utf8EncodeChar d ++ vs := by
  have hlt : c.val.toNat < d.val.toNat := h
  have hd := charCode_lt d
  simp only [String.utf8EncodeChar]
  generalize c.val.toNat = m at hlt
  generalize d.val.toNat = n at hlt hd
  have hsize : UInt8.size = 256 := rfl
  -- Every byte but the first one holds a digit to the base 64.
  have hsecond (v : Nat) : v / 4096 = v / 64 / 64 := by omega
  have hthird (v : Nat) : v / 262144 = v / 64 / 64 / 64 := by omega
  split_ifs <;>
    simp (disch := omega) only [List.cons_append, List.cons_lt_cons_iff,
      UInt8.ofNat_lt_iff_lt, ofNat_eq_ofNat_iff, hsecond, hthird] <;>
    omega

theorem flatMap_encode_lt {cs ds : List Char} (h : cs < ds) :
    cs.flatMap String.utf8EncodeChar < ds.flatMap String.utf8EncodeChar := by
  induction h with
  | @nil d ds =>
    obtain ⟨b, bs, hform⟩ := List.exists_cons_of_ne_nil (String.utf8EncodeChar_ne_nil (c := d))
    rw [List.flatMap_cons, hform]
    exact List.nil_lt_cons b _
  | rel h => exact encode_lt_encode h _ _
  | cons h ih => exact List.append_left_lt ih

theorem utf8_eq_flatMap (s : String) : utf8 s = s.toList.flatMap String.utf8EncodeChar := by
  have hform : s.toByteArray = s.toList.utf8Encode := by
    rw [← String.toByteArray_ofList, String.ofList_toList]
  rw [utf8, hform, List.utf8Encode, List.data_toByteArray]

theorem utf8_lt_utf8 {s t : String} (h : s < t) : utf8 s < utf8 t := by
  rw [utf8_eq_flatMap, utf8_eq_flatMap]
  exact flatMap_encode_lt (String.lt_iff_toList_lt.mp h)

theorem utf8_lt_iff {s t : String} : utf8 s < utf8 t ↔ s < t := by
  refine ⟨fun h => ?_, utf8_lt_utf8⟩
  rcases lt_trichotomy s t with hlt | rfl | hgt
  · exact hlt
  · exact absurd h (List.lt_irrefl _)
  · exact absurd (utf8_lt_utf8 hgt) (List.lt_asymm h)

/-- The order of the bytes is the order of the texts. -/
theorem compare_utf8 (s t : String) : compareOfLessAndEq (utf8 s) (utf8 t) = compare s t := by
  show _ = compareOfLessAndEq s t
  simp only [compareOfLessAndEq, utf8_lt_iff, utf8_inj]

end StopArrivals
