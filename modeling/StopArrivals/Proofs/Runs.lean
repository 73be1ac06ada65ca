import Mathlib.Data.List.Dedup
import Mathlib.Data.List.SplitBy
import StopArrivals.Event

/-!
# Runs of one fingerprint

A merge and the choice of the latest candidates both put a list in order and cut it where the
fingerprint changes. The runs that come out are the entries of each fingerprint, in order, for one
fingerprint after the other (`runs_eq`). So what is done with a run is done with all entries of a
fingerprint, and the entries of another fingerprint do not matter.
-/

namespace StopArrivals

/-! ## Fingerprints in ascending order -/

theorem Fingerprint.lt_of_le_of_ne {f g : Fingerprint} (h : f ≤ g) (hne : f ≠ g) : f < g :=
  Nat.lt_of_le_of_ne h fun heq => hne (Fingerprint.toNat_inj.mp heq)

theorem Fingerprint.lt_of_lt_of_le {f g h : Fingerprint} (hfg : f < g) (hgh : g ≤ h) : f < h :=
  Nat.lt_of_lt_of_le (lt_def.mp hfg) hgh

theorem Fingerprint.lt_irrefl (f : Fingerprint) : ¬f < f := Nat.lt_irrefl f.toNat

instance : Std.Irrefl fun f g : Fingerprint => f < g := ⟨Fingerprint.lt_irrefl⟩

/-- Each fingerprint once, the lowest first. -/
def inOrder (fs : List Fingerprint) : List Fingerprint := fs.dedup.mergeSort fun f g => f ≤ g

theorem mem_inOrder {f : Fingerprint} {fs : List Fingerprint} : f ∈ inOrder fs ↔ f ∈ fs := by
  rw [inOrder, List.mem_mergeSort, List.mem_dedup]

theorem nodup_inOrder (fs : List Fingerprint) : (inOrder fs).Nodup :=
  (List.mergeSort_perm _ _).nodup_iff.mpr (List.nodup_dedup fs)

theorem pairwise_inOrder (fs : List Fingerprint) : (inOrder fs).Pairwise (· < ·) := by
  have htrans : ∀ f g h : Fingerprint, decide (f ≤ g) → decide (g ≤ h) → decide (f ≤ h) := by
    simp only [decide_eq_true_eq]
    exact fun _ _ _ => Fingerprint.le_trans
  have htotal : ∀ f g : Fingerprint, decide (f ≤ g) || decide (g ≤ f) := by
    simp only [Bool.or_eq_true, decide_eq_true_eq]
    exact Fingerprint.le_total
  refine ((List.pairwise_mergeSort htrans htotal fs.dedup).and
    (List.nodup_iff_pairwise_ne.mp (nodup_inOrder fs))).imp fun h => ?_
  exact Fingerprint.lt_of_le_of_ne (of_decide_eq_true h.1) h.2

/-- A list in strictly ascending order is determined by its members. -/
theorem eq_of_pairwise_lt {α : Type} (lt : α → α → Prop) (hirrefl : ∀ a, ¬lt a a)
    (htrans : ∀ a b c, lt a b → lt b c → lt a c) {l m : List α} (hl : l.Pairwise lt)
    (hm : m.Pairwise lt) (hmem : ∀ a, a ∈ l ↔ a ∈ m) : l = m := by
  have : Std.Irrefl lt := ⟨hirrefl⟩
  have hperm : l.Perm m := (List.perm_ext_iff_of_nodup hl.nodup hm.nodup).mpr hmem
  exact hperm.eq_of_pairwise
    (fun a b _ _ hab hba => absurd (htrans a b a hab hba) (hirrefl a)) hl hm

theorem eq_of_ascending {α : Type} (fingerprint : α → Fingerprint) {l m : List α}
    (hl : l.Pairwise fun a b => fingerprint a < fingerprint b)
    (hm : m.Pairwise fun a b => fingerprint a < fingerprint b) (hmem : ∀ a, a ∈ l ↔ a ∈ m) :
    l = m :=
  eq_of_pairwise_lt (fun a b => fingerprint a < fingerprint b)
    (fun _ => Fingerprint.lt_irrefl _) (fun _ _ _ => Nat.lt_trans) hl hm hmem

theorem eq_inOrder {fs gs : List Fingerprint} (hgs : gs.Pairwise (· < ·))
    (hmem : ∀ f, f ∈ gs ↔ f ∈ fs) : gs = inOrder fs := by
  refine eq_of_ascending id hgs (pairwise_inOrder fs) fun f => ?_
  rw [hmem, mem_inOrder]

/-! ## Sorting and selecting

Sorting is stable, so it makes no difference whether a part of a list is taken before the list is
sorted or after it. -/

/-- A list is cut in one way only into a part that fails a test and a part that passes it. -/
theorem split_unique {α : Type} {p : α → Bool} {l₁ l₂ m₁ m₂ : List α}
    (h : l₁ ++ l₂ = m₁ ++ m₂) (hl₁ : ∀ x ∈ l₁, p x = false) (hl₂ : ∀ x ∈ l₂, p x = true)
    (hm₁ : ∀ x ∈ m₁, p x = false) (hm₂ : ∀ x ∈ m₂, p x = true) : l₁ = m₁ ∧ l₂ = m₂ := by
  have hl : (l₁ ++ l₂).filter p = l₂ := by
    rw [List.filter_append, List.filter_eq_nil_iff.mpr fun x hx => by simp [hl₁ x hx],
      List.filter_eq_self.mpr hl₂, List.nil_append]
  have hm : (m₁ ++ m₂).filter p = m₂ := by
    rw [List.filter_append, List.filter_eq_nil_iff.mpr fun x hx => by simp [hm₁ x hx],
      List.filter_eq_self.mpr hm₂, List.nil_append]
  have h₂ : l₂ = m₂ := by rw [← hl, h, hm]
  exact ⟨List.append_cancel_right (h₂ ▸ h), h₂⟩

theorem filter_mergeSort {α : Type} {before : α → α → Bool} (p : α → Bool)
    (htrans : ∀ a b c, before a b → before b c → before a c)
    (htotal : ∀ a b, before a b || before b a) (l : List α) :
    (l.mergeSort before).filter p = (l.filter p).mergeSort before := by
  induction l with
  | nil => simp
  | cons a l ih =>
      obtain ⟨l₁, l₂, hsort, hrest, hl₁⟩ := List.mergeSort_cons htrans htotal a l
      rw [hrest, List.filter_append] at ih
      cases hp : p a with
      | false =>
          rw [hsort, List.filter_append, List.filter_cons_of_neg (by simp [hp]),
            List.filter_cons_of_neg (by simp [hp]), ih]
      | true =>
          obtain ⟨m₁, m₂, hsort', hrest', hm₁⟩ :=
            List.mergeSort_cons htrans htotal a (l.filter p)
          -- Both lists are cut where the entries that `a` may precede begin.
          have hl : (l₁ ++ a :: l₂).Pairwise fun x y => before x y = true :=
            hsort ▸ List.pairwise_mergeSort htrans htotal (a :: l)
          have hm : (m₁ ++ a :: m₂).Pairwise fun x y => before x y = true :=
            hsort' ▸ List.pairwise_mergeSort htrans htotal (a :: l.filter p)
          obtain ⟨h₁, h₂⟩ := split_unique (p := before a) (ih.trans hrest')
            (fun x hx => by simpa using hl₁ x (List.mem_filter.mp hx).1)
            (fun x hx => List.rel_of_pairwise_cons (List.pairwise_append.mp hl).2.1
              (List.mem_filter.mp hx).1)
            (fun x hx => by simpa using hm₁ x hx)
            (fun x hx => List.rel_of_pairwise_cons (List.pairwise_append.mp hm).2.1 hx)
          rw [hsort, List.filter_append, List.filter_cons_of_pos hp, List.filter_cons_of_pos hp,
            hsort', h₁, h₂]

/-! ## Cutting a list at an entry -/

/-- An entry of a part of a list stands in the whole list in the same way. -/
theorem cut_of_filter {α : Type} {p : α → Bool} {l xs ys : List α} {a : α}
    (h : l.filter p = xs ++ a :: ys) :
    ∃ before after, l = before ++ a :: after ∧ p a = true ∧ before.filter p = xs ∧
      after.filter p = ys := by
  obtain ⟨before, rest, rfl, rfl, hrest⟩ := List.filter_eq_append_iff.mp h
  obtain ⟨skipped, after, rfl, hskipped, ha, rfl⟩ := List.filter_eq_cons_iff.mp hrest
  refine ⟨before ++ skipped, after, (List.append_assoc ..).symm, ha, ?_, rfl⟩
  rw [List.filter_append, List.filter_eq_nil_iff.mpr hskipped, List.append_nil]

/-- Two cuts of one list are at the same entry, or one is behind the other. -/
theorem of_two_cuts {α : Type} {xs ys xs' ys' : List α} {a b : α}
    (h : xs ++ a :: ys = xs' ++ b :: ys') :
    a = b ∨ (b ∈ ys ∧ a ∈ xs') ∨ (a ∈ ys' ∧ b ∈ xs) := by
  rcases List.append_eq_append_iff.mp h with ⟨between, rfl, hrest⟩ | ⟨between, rfl, hrest⟩
  · cases between with
    | nil => exact .inl (List.cons.inj hrest).1
    | cons x between =>
      obtain ⟨rfl, rfl⟩ := List.cons.inj hrest
      exact .inr (.inl ⟨by simp, by simp⟩)
  · cases between with
    | nil => exact .inl (List.cons.inj hrest).1.symm
    | cons x between =>
      obtain ⟨rfl, rfl⟩ := List.cons.inj hrest
      exact .inr (.inr ⟨by simp, by simp⟩)

/-! ## The runs -/

section

variable {α : Type} {fingerprint : α → Fingerprint} {before : α → α → Bool}

/-- An order that looks at the fingerprint first. -/
structure ByFingerprint (fingerprint : α → Fingerprint) (before : α → α → Bool) : Prop where
  trans : ∀ a b c, before a b → before b c → before a c
  total : ∀ a b, before a b || before b a
  le : ∀ a b, before a b → fingerprint a ≤ fingerprint b

/-- The order by fingerprint and then by a time. -/
theorem ByFingerprint.thenBy (fingerprint : α → Fingerprint) (time : α → Int) :
    ByFingerprint fingerprint fun a b =>
      fingerprint a < fingerprint b || (fingerprint a == fingerprint b && time a ≤ time b) where
  trans a b c hab hbc := by
    simp only [Bool.or_eq_true, Bool.and_eq_true, decide_eq_true_eq, beq_iff_eq,
      Fingerprint.lt_def, ← Fingerprint.toNat_inj] at *
    omega
  total a b := by
    simp only [Bool.or_eq_true, Bool.and_eq_true, decide_eq_true_eq, beq_iff_eq,
      Fingerprint.lt_def, ← Fingerprint.toNat_inj]
    omega
  le a b hab := by
    simp only [Bool.or_eq_true, Bool.and_eq_true, decide_eq_true_eq, beq_iff_eq,
      Fingerprint.lt_def, Fingerprint.le_def, ← Fingerprint.toNat_inj] at *
    omega

theorem fingerprint_eq_head {a : α} {r : List α}
    (h : (a :: r).IsChain fun x y => (fingerprint x == fingerprint y) = true) :
    ∀ b ∈ a :: r, fingerprint b = fingerprint a := by
  have hchain : (a :: r).IsChain fun x y => fingerprint x = fingerprint y :=
    h.imp fun _ _ h => beq_iff_eq.mp h
  intro b hb
  rcases List.mem_cons.mp hb with rfl | hb
  · rfl
  · exact (List.rel_of_pairwise_cons (List.isChain_iff_pairwise.mp hchain) hb).symm

/-- In an ordered list that is cut where the fingerprint changes, a run is followed by greater
fingerprints only. -/
theorem lt_later_runs {r : List α} {runs : List (List α)} {f : Fingerprint}
    (hr : ∀ b ∈ r, fingerprint b = f)
    (hdiff : (r :: runs).IsChain fun r s => ∃ hr hs,
      (fingerprint (r.getLast hr) == fingerprint (s.head hs)) = false)
    (hle : (r ++ runs.flatten).Pairwise fun a b => fingerprint a ≤ fingerprint b) :
    ∀ b ∈ runs.flatten, f < fingerprint b := by
  cases runs with
  | nil => simp
  | cons s runs =>
      obtain ⟨hne, hs, hdiff⟩ := (List.isChain_cons_cons.mp hdiff).1
      obtain ⟨c, s, rfl⟩ := List.exists_cons_of_ne_nil hs
      obtain ⟨-, hrest, hacross⟩ := List.pairwise_append.mp hle
      have hlast := hr _ (List.getLast_mem hne)
      have hfc : f < fingerprint c := by
        refine Fingerprint.lt_of_le_of_ne ?_ ?_
        · exact hlast ▸ hacross _ (List.getLast_mem hne) c (by simp)
        · simpa [hlast] using hdiff
      intro b hb
      rw [List.flatten_cons, List.cons_append] at hb hrest
      rcases List.mem_cons.mp hb with rfl | hb
      · exact hfc
      · exact Fingerprint.lt_of_lt_of_le hfc (List.rel_of_pairwise_cons hrest hb)

theorem inOrder_append {r l : List α} {f : Fingerprint} (hne : r ≠ [])
    (hr : ∀ b ∈ r, fingerprint b = f) (hl : ∀ b ∈ l, f < fingerprint b) :
    inOrder ((r ++ l).map fingerprint) = f :: inOrder (l.map fingerprint) := by
  refine (eq_inOrder (List.pairwise_cons.mpr ⟨?_, pairwise_inOrder _⟩) ?_).symm
  · intro g hg
    obtain ⟨b, hb, rfl⟩ := List.mem_map.mp (mem_inOrder.mp hg)
    exact hl b hb
  · intro g
    rw [List.mem_cons, mem_inOrder, List.map_append, List.mem_append]
    refine or_congr_left ⟨?_, ?_⟩
    · rintro rfl
      obtain ⟨a, r, rfl⟩ := List.exists_cons_of_ne_nil hne
      exact List.mem_map.mpr ⟨a, List.mem_cons_self .., hr a (List.mem_cons_self ..)⟩
    · intro hg
      obtain ⟨b, hb, rfl⟩ := List.mem_map.mp hg
      exact hr b hb

/-- An ordered list that is cut where the fingerprint changes falls into the entries of its
fingerprints, one after the other. -/
theorem eq_runs_flatten :
    ∀ {runs : List (List α)}, [] ∉ runs →
      (∀ run ∈ runs, run.IsChain fun a b => (fingerprint a == fingerprint b) = true) →
      runs.IsChain (fun r s => ∃ hr hs,
        (fingerprint (r.getLast hr) == fingerprint (s.head hs)) = false) →
      runs.flatten.Pairwise (fun a b => fingerprint a ≤ fingerprint b) →
      runs = (inOrder (runs.flatten.map fingerprint)).map fun f =>
        runs.flatten.filter fun a => fingerprint a = f
  | [], _, _, _, _ => by simp [inOrder]
  | [] :: _, hne, _, _, _ => absurd (List.mem_cons_self ..) hne
  | (a :: r) :: runs, hne, hsame, hdiff, hle => by
      rw [List.flatten_cons] at hle ⊢
      have ih := eq_runs_flatten (fun h => hne (List.mem_cons_of_mem _ h))
        (fun run hrun => hsame run (List.mem_cons_of_mem _ hrun)) hdiff.tail
        (List.pairwise_append.mp hle).2.1
      have hrun := fingerprint_eq_head (hsame _ (List.mem_cons_self ..))
      have hrest := lt_later_runs hrun hdiff hle
      have hfirst : (a :: r ++ runs.flatten).filter (fun b => fingerprint b = fingerprint a) =
          a :: r := by
        rw [List.filter_append, List.filter_eq_self.mpr fun b hb => decide_eq_true (hrun b hb),
          List.filter_eq_nil_iff.mpr fun b hb h =>
            Fingerprint.lt_irrefl _ (of_decide_eq_true h ▸ hrest b hb), List.append_nil]
      have hlater : ∀ f ∈ inOrder (runs.flatten.map fingerprint),
          (a :: r ++ runs.flatten).filter (fun b => fingerprint b = f) =
            runs.flatten.filter fun b => fingerprint b = f := by
        intro f hf
        obtain ⟨c, hc, rfl⟩ := List.mem_map.mp (mem_inOrder.mp hf)
        rw [List.filter_append, List.filter_eq_nil_iff.mpr fun b hb h =>
          Fingerprint.lt_irrefl (fingerprint a) (by
            have hac := hrest c hc
            rwa [← of_decide_eq_true h, hrun b hb] at hac), List.nil_append]
      rw [inOrder_append (List.cons_ne_nil a r) hrun hrest, List.map_cons, hfirst,
        List.map_congr_left hlater, ← ih]

/-- The runs of a list: for each fingerprint, from the lowest on, its entries in order. -/
theorem runs_eq (h : ByFingerprint fingerprint before) (l : List α) :
    ((l.mergeSort before).splitBy fun a b => fingerprint a == fingerprint b) =
      (inOrder (l.map fingerprint)).map fun f =>
        (l.filter fun a => fingerprint a = f).mergeSort before := by
  have hruns := @eq_runs_flatten α fingerprint _
    (List.nil_notMem_splitBy _ (l.mergeSort before))
    (fun run hrun => List.isChain_of_mem_splitBy hrun)
    (List.isChain_getLast_head_splitBy (fun a b => fingerprint a == fingerprint b) _)
    (by
      rw [List.flatten_splitBy]
      exact (List.pairwise_mergeSort h.trans h.total l).imp fun {a b} hab => h.le a b hab)
  rw [List.flatten_splitBy] at hruns
  have hkeys : inOrder ((l.mergeSort before).map fingerprint) = inOrder (l.map fingerprint) :=
    eq_inOrder (pairwise_inOrder _) fun f => by
      simp only [mem_inOrder, List.mem_map, List.mem_mergeSort]
  rw [hruns, hkeys]
  exact List.map_congr_left fun f _ => filter_mergeSort _ h.trans h.total l

/-- How the entries of one fingerprint stand between those of another makes no difference. -/
theorem ByFingerprint.mergeSort_congr (h : ByFingerprint fingerprint before) {l l' : List α}
    (heq : ∀ f, (l.filter fun a => fingerprint a = f) = l'.filter fun a => fingerprint a = f) :
    l.mergeSort before = l'.mergeSort before := by
  have hmem : ∀ a, a ∈ l ↔ a ∈ l' := by
    intro a
    have ha := congrArg (a ∈ ·) (heq (fingerprint a))
    simpa using ha
  have hkeys : inOrder (l.map fingerprint) = inOrder (l'.map fingerprint) :=
    eq_inOrder (pairwise_inOrder _) fun f => by simp only [mem_inOrder, List.mem_map, hmem]
  rw [← List.flatten_splitBy (fun a b => fingerprint a == fingerprint b) (l.mergeSort before),
    ← List.flatten_splitBy (fun a b => fingerprint a == fingerprint b) (l'.mergeSort before),
    runs_eq h, runs_eq h, hkeys]
  simp only [heq]

end

/-- The event of the examples, which differ in fingerprint and time. -/
def sampleEvent (bits : BitVec 128) (timestamp : Int) : Event :=
  ⟨⟨bits⟩, ⟨⟨"73", 0, 20250101, 0, "90"⟩, "1", 1⟩, timestamp, false⟩

end StopArrivals
