import Mathlib.Data.List.Basic
import StopArrivals.Proofs.ByteOrder
import StopArrivals.StopVisit

/-!
# What the identity of a visit tells

The bytes that are hashed for a visit are its seven fields with a separator between each two. No
integer field can hold the separator, but an id can. Cutting the bytes at every separator gives the
cuts of the fields one behind the other; as long as at most one field is cut itself, the pieces
before it and behind it are counted off from the two ends, and what is between them is that field
(`joined_inj`). So two different visits have the same identity only if two of their ids hold the
separator (`StopVisit.identity_unambiguous`).
-/

namespace StopArrivals

/-! ## Joined fields -/

section

variable {α : Type} [BEq α] [LawfulBEq α] {sep : α}

/-- Cutting joined fields at the separator cuts each of them. -/
theorem splitOn_intercalate_flatMap : ∀ {fields : List (List α)}, fields ≠ [] →
    ([sep].intercalate fields).splitOn sep = fields.flatMap (·.splitOn sep)
  | [], h => absurd rfl h
  | [field], _ => by simp
  | field :: next :: rest, _ => by
      have hrest := splitOn_intercalate_flatMap (List.cons_ne_nil next rest)
      rw [List.intercalate_cons_cons, List.append_assoc, List.singleton_append,
        List.flatMap_cons, ← hrest]
      simp only [List.splitOn_eq_splitOnP]
      exact List.splitOnP_append_cons field _ (beq_self_eq_true sep)

theorem flatMap_splitOn_of_clean {fields : List (List α)} (h : ∀ field ∈ fields, sep ∉ field) :
    fields.flatMap (·.splitOn sep) = fields := by
  rw [List.flatMap_congr fun field hfield => List.splitOn_eq_singleton (h field hfield)]
  simp

/-- One field may hold separators, if no other one does and it is known which one it is. -/
theorem joined_inj {before before' after after' : List (List α)} {field field' : List α}
    (hbefore : before.length = before'.length) (hafter : after.length = after'.length)
    (hclean : ∀ x ∈ before ++ after, sep ∉ x) (hclean' : ∀ x ∈ before' ++ after', sep ∉ x)
    (h : [sep].intercalate (before ++ field :: after) =
      [sep].intercalate (before' ++ field' :: after')) :
    before ++ field :: after = before' ++ field' :: after' := by
  have hcut := congrArg (List.splitOn sep) h
  rw [splitOn_intercalate_flatMap (by simp), splitOn_intercalate_flatMap (by simp),
    List.flatMap_append, List.flatMap_append, List.flatMap_cons, List.flatMap_cons] at hcut
  rw [List.forall_mem_append] at hclean hclean'
  rw [flatMap_splitOn_of_clean hclean.1, flatMap_splitOn_of_clean hclean.2,
    flatMap_splitOn_of_clean hclean'.1, flatMap_splitOn_of_clean hclean'.2] at hcut
  obtain ⟨hb, hrest⟩ := List.append_inj hcut hbefore
  obtain ⟨hpieces, ha⟩ := List.append_inj' hrest hafter
  have hfield : field = field' := by
    have hback := congrArg (List.intercalate [sep]) hpieces
    rwa [List.intercalate_splitOn, List.intercalate_splitOn] at hback
  rw [hb, hfield, ha]

end

theorem mem_encode_iff {b : UInt8} (hb : b.toNat < 128) (c : Char) :
    b ∈ String.utf8EncodeChar c ↔ c.toNat = b.toNat := by
  have hc := charCode_lt c
  simp only [String.utf8EncodeChar, Char.toNat]
  generalize c.val.toNat = v at hc
  split_ifs <;>
    simp only [List.mem_cons, List.not_mem_nil, or_false, ← UInt8.toNat_inj,
      UInt8.toNat_ofNat'] <;>
    omega

namespace StopVisit

/-! ## The fields of a visit -/

/-- A text that a reader of the joined bytes would take for more than one field. -/
def HoldsSeparator (text : String) : Prop := unitSeparator ∈ utf8 text

theorem holdsSeparator_iff {text : String} : HoldsSeparator text ↔ '\x1f' ∈ text.toList := by
  rw [HoldsSeparator, utf8_eq_flatMap, List.mem_flatMap]
  constructor
  · rintro ⟨c, hc, hmem⟩
    have hcode := (mem_encode_iff (by decide) c).mp hmem
    have : c = '\x1f' := Char.toNat_inj.mp hcode
    exact this ▸ hc
  · intro hmem
    exact ⟨_, hmem, by decide⟩

instance (text : String) : Decidable (HoldsSeparator text) :=
  decidable_of_iff _ holdsSeparator_iff.symm

/-- A written integer is digits, perhaps with a minus sign in front. -/
theorem not_holdsSeparator_integerText (v : Int) : ¬HoldsSeparator (integerText v) := by
  rw [holdsSeparator_iff, integerText, String.toList_ofList]
  have hdigits (n : Nat) : '\x1f' ∉ naturalChars n := fun h =>
    absurd (Nat.isDigit_of_mem_toDigits (by decide) (by decide) h) (by decide)
  cases v with
  | ofNat n => exact hdigits n
  | negSucc n =>
    intro h
    rcases List.mem_cons.mp h with h | h
    · exact absurd h (by decide)
    · exact hdigits _ h

theorem fields_inj {v w : StopVisit} (h : v.fields = w.fields) : v = w := by
  obtain ⟨⟨route, direction, startDate, startTime, vehicle⟩, stop, sequence⟩ := v
  obtain ⟨⟨route', direction', startDate', startTime', vehicle'⟩, stop', sequence'⟩ := w
  simp only [fields, List.cons.injEq, and_true] at h
  obtain ⟨rfl, hdirection, hdate, htime, rfl, rfl, hsequence⟩ := h
  rw [integerText_inj hdirection, integerText_inj hdate, integerText_inj htime,
    integerText_inj hsequence]

/-! ## Two visits of one identity -/

/-- The ids of two visits, kind by kind. -/
def idPairs (v w : StopVisit) : List (String × String) :=
  [(v.trip.route, w.trip.route), (v.trip.vehicle, w.trip.vehicle), (v.stop, w.stop)]

/-- How many kinds of id hold the separator in one of the visits. -/
def separatedIds (v w : StopVisit) : Nat :=
  (idPairs v w).countP fun ids => HoldsSeparator ids.1 ∨ HoldsSeparator ids.2

section

variable {v w : StopVisit}

/-- One field may hold the separator in both visits. -/
theorem eq_of_identity_except (n : Nat) (hn : n < 7)
    (hclean : ∀ x ∈ v.fields.eraseIdx n, ¬HoldsSeparator x)
    (hclean' : ∀ x ∈ w.fields.eraseIdx n, ¬HoldsSeparator x)
    (h : v.identity = w.identity) : v = w := by
  have hcut (u : StopVisit) :
      u.fields.take n ++ u.fields.get ⟨n, hn⟩ :: u.fields.drop (n + 1) = u.fields := by
    rw [List.get_eq_getElem, List.getElem_cons_drop hn, List.take_append_drop]
  refine fields_inj (List.map_injective_iff.mpr (fun _ _ => utf8_inj.mp) ?_)
  rw [List.eraseIdx_eq_take_drop_succ] at hclean hclean'
  rw [identity, identity, ← hcut v, ← hcut w] at h
  rw [← hcut v, ← hcut w]
  simp only [List.map_append, List.map_cons] at h ⊢
  refine joined_inj (by simp [fields]) (by simp [fields]) ?_ ?_ h
  · rw [← List.map_append, List.forall_mem_map]
    exact hclean
  · rw [← List.map_append, List.forall_mem_map]
    exact hclean'

/-- With less than two kinds of id that hold the separator, all fields but one are clean. -/
theorem exists_clean_except (h : separatedIds v w < 2) :
    ∃ n < 7, (∀ x ∈ v.fields.eraseIdx n, ¬HoldsSeparator x) ∧
      ∀ x ∈ w.fields.eraseIdx n, ¬HoldsSeparator x := by
  simp only [separatedIds, idPairs, List.countP_cons, List.countP_nil, decide_eq_true_eq] at h
  by_cases hroute : HoldsSeparator v.trip.route ∨ HoldsSeparator w.trip.route
  · refine ⟨0, by decide, ?_⟩
    have hvehicle : ¬(HoldsSeparator v.trip.vehicle ∨ HoldsSeparator w.trip.vehicle) := by
      intro hvehicle
      simp only [hroute, hvehicle, if_true] at h
      omega
    have hstop : ¬(HoldsSeparator v.stop ∨ HoldsSeparator w.stop) := by
      intro hstop
      simp only [hroute, hstop, if_true] at h
      omega
    rw [not_or] at hvehicle hstop
    simp [fields, not_holdsSeparator_integerText, hvehicle, hstop]
  · by_cases hvehicle : HoldsSeparator v.trip.vehicle ∨ HoldsSeparator w.trip.vehicle
    · refine ⟨4, by decide, ?_⟩
      have hstop : ¬(HoldsSeparator v.stop ∨ HoldsSeparator w.stop) := by
        intro hstop
        simp only [hvehicle, hstop, if_true] at h
        omega
      rw [not_or] at hroute hstop
      simp [fields, not_holdsSeparator_integerText, hroute, hstop]
    · refine ⟨5, by decide, ?_⟩
      rw [not_or] at hroute hvehicle
      simp [fields, not_holdsSeparator_integerText, hroute, hvehicle]

/-- Two different visits of one identity have two ids with separators in them. -/
theorem two_le_separatedIds (h : v.identity = w.identity) (hne : v ≠ w) :
    2 ≤ separatedIds v w := by
  by_contra hfew
  obtain ⟨n, hn, hclean, hclean'⟩ := exists_clean_except (Nat.not_le.mp hfew)
  exact hne (eq_of_identity_except n hn hclean hclean' h)

end

/-- Only separators in two of their ids give two visits one identity; without separators in the ids
the identity tells the visit. -/
theorem identity_unambiguous (v w : StopVisit) :
    (v.identity = w.identity → v ≠ w → 2 ≤ separatedIds v w) ∧
    ((∀ ids ∈ idPairs v w, ¬HoldsSeparator ids.1 ∧ ¬HoldsSeparator ids.2) →
      (v.identity = w.identity ↔ v = w)) := by
  refine ⟨two_le_separatedIds, fun hclean => ⟨fun h => ?_, fun h => h ▸ rfl⟩⟩
  by_contra hne
  have hnone : separatedIds v w = 0 := by
    rw [separatedIds, List.countP_eq_zero]
    intro ids hids
    simpa using hclean ids hids
  have htwo := two_le_separatedIds h hne
  omega

/-- A separator moved from one id to the next one keeps the identity; a digit moved changes it. -/
theorem identity_unambiguous_of_moved_character :
    let visit (vehicle stop : String) : StopVisit :=
      ⟨⟨"Red", 0, 20230508, -60, vehicle⟩, stop, 1⟩
    ((visit "a\x1fb" "c").identity = (visit "a" "b\x1fc").identity ∧
      2 ≤ separatedIds (visit "a\x1fb" "c") (visit "a" "b\x1fc")) ∧
    (visit "R-5" "4770061").identity ≠ (visit "R-547" "70061").identity := by
  intro visit
  have hsame : (visit "a\x1fb" "c").identity = (visit "a" "b\x1fc").identity := by decide
  refine ⟨⟨hsame, (identity_unambiguous _ _).1 hsame (by decide)⟩, fun h => ?_⟩
  have heq := ((identity_unambiguous _ _).2 (by decide)).mp h
  exact absurd heq (by decide)

end StopVisit

end StopArrivals
