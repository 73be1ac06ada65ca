import StopArrivals.Latest
import StopArrivals.Proofs.Runs

/-!
# The latest candidates

Of the candidates of a visit one is kept: none before it in the list has a later message, and all
after it have earlier ones (`IsLatest`). There is one such candidate for each fingerprint in the
list (`mem_latestEvents`). When a list is cut in two, the one that is kept of the whole is kept of
one of the parts (`IsLatest.append`). When a list is put in another order, the same events are kept,
unless two candidates of one visit and one message differ (`latestEvents_perm`).
-/

namespace StopArrivals

/-! ## The last entry of a sorted list -/

/-- Sorting is stable, so the last entry of a sorted list is the last one given of the greatest. -/
theorem getLast?_mergeSort {α : Type} {before : α → α → Bool}
    (htrans : ∀ a b c, before a b → before b c → before a c)
    (htotal : ∀ a b, before a b || before b a) {l : List α} {a : α}
    (h : (l.mergeSort before).getLast? = some a) :
    ∃ xs ys, l = xs ++ a :: ys ∧ (∀ x ∈ xs, before x a) ∧ ∀ y ∈ ys, ¬before a y := by
  induction l with
  | nil => simp at h
  | cons b l ih =>
      obtain ⟨l₁, l₂, hsort, hrest, hl₁⟩ := List.mergeSort_cons htrans htotal b l
      have hsorted : (l₁ ++ b :: l₂).Pairwise fun x y => before x y = true :=
        hsort ▸ List.pairwise_mergeSort htrans htotal (b :: l)
      rw [hsort] at h
      cases l₂ with
      | nil =>
          rw [List.getLast?_concat] at h
          obtain rfl := Option.some.inj h
          refine ⟨[], l, rfl, fun x hx => absurd hx List.not_mem_nil, fun y hy => ?_⟩
          rw [List.append_nil] at hrest
          simpa using hl₁ y (hrest ▸ List.mem_mergeSort.mpr hy)
      | cons c l₂ =>
          -- Something comes after `b`, so the last entry is that of the rest of the list.
          have hlast : (c :: l₂).getLast? = some a := by
            rwa [List.getLast?_append_of_ne_nil _ (List.cons_ne_nil _ _),
              List.getLast?_cons_cons] at h
          obtain ⟨xs, ys, rfl, hxs, hys⟩ := ih (by
            rwa [hrest, List.getLast?_append_of_ne_nil _ (List.cons_ne_nil _ _)])
          refine ⟨b :: xs, ys, rfl, ?_, hys⟩
          intro x hx
          rcases List.mem_cons.mp hx with rfl | hx
          · exact List.rel_of_pairwise_cons (List.pairwise_append.mp hsorted).2.1
              (List.mem_of_getLast? hlast)
          · exact hxs x hx

/-! ## The candidate that is kept -/

/-- The candidate of a fingerprint with the latest message, the last one given of several. -/
def IsLatest (f : Fingerprint) (candidates : List Candidate) (c : Candidate) : Prop :=
  ∃ earlier later, candidates = earlier ++ c :: later ∧ c.event.fingerprint = f ∧
    (∀ d ∈ earlier, d.event.fingerprint = f → d.messageTime ≤ c.messageTime) ∧
    ∀ d ∈ later, d.event.fingerprint = f → d.messageTime < c.messageTime

namespace IsLatest

variable {f : Fingerprint} {candidates a b : List Candidate} {c d : Candidate}

theorem fingerprint_eq (h : IsLatest f candidates c) : c.event.fingerprint = f := by
  obtain ⟨_, _, _, hf, _⟩ := h
  exact hf

theorem mem (h : IsLatest f candidates c) : c ∈ candidates := by
  obtain ⟨earlier, later, rfl, -⟩ := h
  simp

theorem eq (hc : IsLatest f candidates c) (hd : IsLatest f candidates d) : c = d := by
  obtain ⟨earlier, later, rfl, hf, hle, hlt⟩ := hc
  obtain ⟨earlier', later', hcut, hf', hle', hlt'⟩ := hd
  rcases of_two_cuts hcut with h | ⟨hd, hc⟩ | ⟨hc, hd⟩
  · exact h
  · have h₁ := hlt d hd hf'
    have h₂ := hle' c hc hf
    omega
  · have h₁ := hlt' c hc hf
    have h₂ := hle d hd hf'
    omega

theorem messageTime_le (h : IsLatest f candidates c) (hd : d ∈ candidates)
    (hf : d.event.fingerprint = f) : d.messageTime ≤ c.messageTime := by
  obtain ⟨earlier, later, rfl, -, hle, hlt⟩ := h
  rcases List.mem_append.mp hd with hd | hd
  · exact hle d hd hf
  rcases List.mem_cons.mp hd with rfl | hd
  · exact Int.le_refl _
  · exact Int.le_of_lt (hlt d hd hf)

/-- What is kept of a list is kept of that part of it in which it stands. -/
theorem append (h : IsLatest f (a ++ b) c) : IsLatest f a c ∨ IsLatest f b c := by
  obtain ⟨earlier, later, heq, hf, hle, hlt⟩ := h
  rcases List.append_eq_append_iff.mp heq with ⟨between, rfl, rfl⟩ | ⟨between, rfl, hrest⟩
  · refine .inr ⟨between, later, rfl, hf, fun d hd => ?_, hlt⟩
    exact hle d (List.mem_append_right a hd)
  · cases between with
    | nil =>
      refine .inr ⟨[], later, hrest.symm, hf, fun d hd => absurd hd List.not_mem_nil, hlt⟩
    | cons x between =>
      obtain ⟨rfl, rfl⟩ := List.cons.inj hrest
      refine .inl ⟨earlier, between, rfl, hf, hle, fun d hd => ?_⟩
      exact hlt d (List.mem_append_left b hd)

end IsLatest

/-! ## The runs of a list of candidates -/

theorem Candidate.byFingerprint :
    ByFingerprint (fun c : Candidate => c.event.fingerprint) Candidate.before :=
  .thenBy _ Candidate.messageTime

theorem Candidate.before_iff {c d : Candidate} (h : c.event.fingerprint = d.event.fingerprint) :
    c.before d = true ↔ c.messageTime ≤ d.messageTime := by
  simp [Candidate.before, h, Fingerprint.lt_irrefl]

/-- The last candidate of the run of a fingerprint. -/
def latestOf? (f : Fingerprint) (candidates : List Candidate) : Option Candidate :=
  ((candidates.filter fun c => c.event.fingerprint = f).mergeSort Candidate.before).getLast?

theorem latestEvents_eq (candidates : List Candidate) :
    latestEvents candidates =
      (inOrder (candidates.map (·.event.fingerprint))).filterMap fun f =>
        (latestOf? f candidates).map Candidate.event := by
  rw [latestEvents, candidateRuns, runs_eq Candidate.byFingerprint, List.filterMap_map]
  rfl

theorem isLatest_of_latestOf? {f : Fingerprint} {candidates : List Candidate} {c : Candidate}
    (h : latestOf? f candidates = some c) : IsLatest f candidates c := by
  obtain ⟨xs, ys, hcut, hxs, hys⟩ :=
    getLast?_mergeSort Candidate.byFingerprint.trans Candidate.byFingerprint.total h
  obtain ⟨earlier, later, rfl, hf, rfl, rfl⟩ := cut_of_filter hcut
  replace hf : c.event.fingerprint = f := of_decide_eq_true hf
  refine ⟨earlier, later, rfl, hf, fun d hd hdf => ?_, fun d hd hdf => ?_⟩
  · exact (Candidate.before_iff (hdf.trans hf.symm)).mp
      (hxs d (List.mem_filter.mpr ⟨hd, decide_eq_true hdf⟩))
  · have hnot := hys d (List.mem_filter.mpr ⟨hd, decide_eq_true hdf⟩)
    rw [Candidate.before_iff (hf.trans hdf.symm)] at hnot
    omega

theorem exists_latestOf? {f : Fingerprint} {candidates : List Candidate}
    (h : f ∈ candidates.map (·.event.fingerprint)) : ∃ c, latestOf? f candidates = some c := by
  obtain ⟨c, hc, hf⟩ := List.mem_map.mp h
  refine Option.ne_none_iff_exists'.mp fun hnone => ?_
  rw [latestOf?, List.getLast?_eq_none_iff] at hnone
  have hmem : c ∈ (candidates.filter fun c => c.event.fingerprint = f).mergeSort
      Candidate.before :=
    List.mem_mergeSort.mpr (List.mem_filter.mpr ⟨hc, decide_eq_true hf⟩)
  exact List.not_mem_nil (hnone ▸ hmem)

theorem latestOf?_eq_some_iff {f : Fingerprint} {candidates : List Candidate} {c : Candidate} :
    latestOf? f candidates = some c ↔ IsLatest f candidates c := by
  refine ⟨isLatest_of_latestOf?, fun h => ?_⟩
  obtain ⟨d, hd⟩ := exists_latestOf? (List.mem_map.mpr ⟨c, h.mem, h.fingerprint_eq⟩)
  rw [hd, (isLatest_of_latestOf? hd).eq h]

/-! ## The events that are kept -/

variable {candidates a b : List Candidate} {e : Event}

theorem mem_latestEvents :
    e ∈ latestEvents candidates ↔ ∃ c, IsLatest e.fingerprint candidates c ∧ c.event = e := by
  simp only [latestEvents_eq, List.mem_filterMap, mem_inOrder, Option.map_eq_some_iff,
    latestOf?_eq_some_iff]
  constructor
  · rintro ⟨f, -, c, hc, rfl⟩
    exact ⟨c, hc.fingerprint_eq.symm ▸ hc, rfl⟩
  · rintro ⟨c, hc, rfl⟩
    exact ⟨_, List.mem_map_of_mem hc.mem, c, hc, rfl⟩

/-- Each fingerprint of the candidates has an event. -/
theorem fingerprints_latestEvents {f : Fingerprint} :
    f ∈ (latestEvents candidates).map Event.fingerprint ↔
      f ∈ candidates.map (·.event.fingerprint) := by
  constructor
  · intro h
    obtain ⟨e, he, rfl⟩ := List.mem_map.mp h
    obtain ⟨c, hc, rfl⟩ := mem_latestEvents.mp he
    exact List.mem_map_of_mem hc.mem
  · intro h
    obtain ⟨c, hc⟩ := exists_latestOf? h
    have hlatest := isLatest_of_latestOf? hc
    refine List.mem_map.mpr ⟨c.event, mem_latestEvents.mpr ⟨c, ?_, rfl⟩, hlatest.fingerprint_eq⟩
    exact hlatest.fingerprint_eq.symm ▸ hlatest

theorem eq_of_mem_latestEvents {d : Event} (he : e ∈ latestEvents candidates)
    (hd : d ∈ latestEvents candidates) (hf : e.fingerprint = d.fingerprint) : e = d := by
  obtain ⟨c, hc, rfl⟩ := mem_latestEvents.mp he
  obtain ⟨c', hc', rfl⟩ := mem_latestEvents.mp hd
  rw [hc.eq (hf ▸ hc')]

theorem mem_latestEvents_of_append (he : e ∈ latestEvents (a ++ b)) :
    e ∈ latestEvents a ∨ e ∈ latestEvents b := by
  obtain ⟨c, hc, rfl⟩ := mem_latestEvents.mp he
  exact hc.append.imp (fun h => mem_latestEvents.mpr ⟨c, h, rfl⟩)
    fun h => mem_latestEvents.mpr ⟨c, h, rfl⟩

/-- Where only one of the parts has candidates of a visit, the whole keeps what that part keeps. -/
theorem mem_latestEvents_append
    (honly : e.fingerprint ∉ a.map (·.event.fingerprint) ∨
      e.fingerprint ∉ b.map (·.event.fingerprint))
    (he : e ∈ latestEvents a ∨ e ∈ latestEvents b) : e ∈ latestEvents (a ++ b) := by
  have hin : e.fingerprint ∈ (a ++ b).map (·.event.fingerprint) := by
    rw [List.map_append, List.mem_append]
    exact he.imp (fun h => fingerprints_latestEvents.mp (List.mem_map_of_mem h))
      fun h => fingerprints_latestEvents.mp (List.mem_map_of_mem h)
  obtain ⟨d, hd, hde⟩ := List.mem_map.mp (fingerprints_latestEvents.mpr hin)
  have hsame : e = d := by
    rcases honly with hnone | hnone <;> rw [← fingerprints_latestEvents] at hnone
    · have he' := he.resolve_left fun h => hnone (List.mem_map_of_mem h)
      have hd' := (mem_latestEvents_of_append hd).resolve_left fun h =>
        hnone (List.mem_map.mpr ⟨d, h, hde⟩)
      exact eq_of_mem_latestEvents he' hd' hde.symm
    · have he' := he.resolve_right fun h => hnone (List.mem_map_of_mem h)
      have hd' := (mem_latestEvents_of_append hd).resolve_right fun h =>
        hnone (List.mem_map.mpr ⟨d, h, hde⟩)
      exact eq_of_mem_latestEvents he' hd' hde.symm
  exact hsame ▸ hd

/-! ## The order of the events and of the candidates -/

theorem pairwise_latestEvents (candidates : List Candidate) :
    (latestEvents candidates).Pairwise fun a b => a.fingerprint < b.fingerprint := by
  rw [latestEvents_eq]
  refine (pairwise_inOrder _).filterMap _ fun f g hfg d hd e he => ?_
  obtain ⟨c, hc, rfl⟩ := Option.map_eq_some_iff.mp hd
  obtain ⟨c', hc', rfl⟩ := Option.map_eq_some_iff.mp he
  rwa [(isLatest_of_latestOf? hc).fingerprint_eq, (isLatest_of_latestOf? hc').fingerprint_eq]

/-- Candidates of one visit and one message have the same event. -/
def MessagesAgree (candidates : List Candidate) : Prop :=
  ∀ c ∈ candidates, ∀ d ∈ candidates, c.event.fingerprint = d.event.fingerprint →
    c.messageTime = d.messageTime → c.event = d.event

theorem MessagesAgree.perm (h : MessagesAgree a) (hperm : a.Perm b) : MessagesAgree b :=
  fun c hc d hd => h c (hperm.mem_iff.mpr hc) d (hperm.mem_iff.mpr hd)

theorem mem_latestEvents_of_perm (hagree : MessagesAgree a) (hperm : a.Perm b)
    (he : e ∈ latestEvents a) : e ∈ latestEvents b := by
  obtain ⟨c, hc, rfl⟩ := mem_latestEvents.mp he
  obtain ⟨d, hd⟩ := exists_latestOf? (List.mem_map_of_mem (hperm.mem_iff.mp hc.mem))
  replace hd := isLatest_of_latestOf? hd
  -- Each of the two is as late as the other, so their events agree.
  have hda := hperm.mem_iff.mpr hd.mem
  have htime : c.messageTime = d.messageTime := Int.le_antisymm
    (hd.messageTime_le (hperm.mem_iff.mp hc.mem) rfl) (hc.messageTime_le hda hd.fingerprint_eq)
  have hevent := hagree c hc.mem d hda hd.fingerprint_eq.symm htime
  exact mem_latestEvents.mpr ⟨d, hd, hevent.symm⟩

theorem latestEvents_perm (hagree : MessagesAgree a) (hperm : a.Perm b) :
    latestEvents a = latestEvents b := by
  refine eq_of_ascending Event.fingerprint (pairwise_latestEvents a) (pairwise_latestEvents b)
    fun e => ⟨?_, ?_⟩
  · exact mem_latestEvents_of_perm hagree hperm
  · exact mem_latestEvents_of_perm (hagree.perm hperm) hperm.symm

/-- The events that are kept come in strictly ascending order of fingerprints, one for each
fingerprint of the candidates: the event, as it stands, of the candidate with the latest message,
the last one given of several. So the order of the candidates makes no difference where those of one
visit and one message agree. -/
theorem latest_kept_of_each_visit (candidates : List Candidate) :
    ((latestEvents candidates).Pairwise fun a b => a.fingerprint < b.fingerprint) ∧
      (∀ f, f ∈ (latestEvents candidates).map Event.fingerprint ↔
        f ∈ candidates.map (·.event.fingerprint)) ∧
      (∀ e, e ∈ latestEvents candidates ↔
        ∃ c, IsLatest e.fingerprint candidates c ∧ c.event = e) ∧
      ∀ others, MessagesAgree candidates → candidates.Perm others →
        latestEvents others = latestEvents candidates := by
  refine ⟨pairwise_latestEvents candidates, fun f => fingerprints_latestEvents,
    fun e => mem_latestEvents, ?_⟩
  intro others hagree hperm
  exact (latestEvents_perm hagree hperm).symm

/-- Two visits, one of them in two messages. -/
def sampleObservations : List Candidate :=
  [⟨sampleEvent 7 40, 2⟩, ⟨sampleEvent 7 50, 1⟩,
    ⟨⟨⟨3⟩, ⟨⟨"73", 0, 20250101, 0, "90"⟩, "2", 2⟩, 60, false⟩, 1⟩]

theorem latest_kept_of_reversed_observations :
    MessagesAgree sampleObservations ∧
      latestEvents sampleObservations.reverse = latestEvents sampleObservations := by
  have hagree : MessagesAgree sampleObservations := by
    unfold MessagesAgree
    decide
  obtain ⟨-, -, -, hperm⟩ := latest_kept_of_each_visit sampleObservations
  exact ⟨hagree, hperm _ hagree (List.reverse_perm _).symm⟩

end StopArrivals
