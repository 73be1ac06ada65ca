import Mathlib.Data.List.Permutation
import StopArrivals.Proofs.Merging

/-!
# Repeated merges

No attempt to merge changes the table in which a merge of the same events settles, whichever group
of statements fails. So events may be merged as often as it takes: after the first success the table
is the one that a single merge would have left, ids and the next id included.
-/

namespace StopArrivals

namespace MemoryStore

/-! ## The store keeps its table -/

/-- Only the failure that was set happens, and it happens once. -/
def Moves : Option StatementGroup → MemoryStore → MemoryStore → Prop
  | none, s, s' => s'.failNext = s.failNext
  | some group, s, s' => s.failNext = some group ∧ s'.failNext = none

/-- A guarded call fails exactly when its group is the one that must. -/
theorem groupEnds_guarded {α : Type} {group : StatementGroup} {call : Call MemoryStore α}
    {work : EventTable → EventTable} {s : MemoryStore} {a : α} {s' : MemoryStore}
    (hcall : call s = (.ok a, s')) (htable : s'.table = work s.table)
    (hfail : s'.failNext = s.failNext) :
    GroupEnds MemoryStore.table Moves group work s (mergeCall group (guarded group call) s) := by
  rw [mergeCall, guarded]
  by_cases h : s.failNext = some group
  · rw [if_pos h]
    exact .failed rfl ⟨h, rfl⟩
  · rw [if_neg h, hcall]
    exact .done htable hfail

/-- An insert finds no repetition exactly when there is none. -/
theorem firstRepeated_eq_none_iff {seen : List Fingerprint} {events : List Event} :
    firstRepeated seen events = none ↔ (∀ e ∈ events, e.fingerprint ∉ seen) ∧
      events.Pairwise fun a b => a.fingerprint ≠ b.fingerprint := by
  induction events generalizing seen with
  | nil => simp [firstRepeated]
  | cons e es ih =>
      rw [firstRepeated, List.forall_mem_cons, List.pairwise_cons]
      by_cases he : e.fingerprint ∈ seen
      · simp [he]
      · rw [if_neg he, ih]
        simp only [List.mem_cons, not_or, forall_and]
        constructor
        · rintro ⟨⟨hfirst, hseen⟩, hrest⟩
          exact ⟨⟨he, hseen⟩, fun d hd => Ne.symm (hfirst d hd), hrest⟩
        · rintro ⟨⟨-, hseen⟩, hfirst, hrest⟩
          exact ⟨⟨fun d hd => Ne.symm (hfirst d hd), hseen⟩, hrest⟩

theorem keeps_table : store.Keeps MemoryStore.table Moves where
  refl _ := rfl
  trans {group? _ _ _} h₁ h₂ := by
    cases group? with
    | none => exact h₂.trans h₁
    | some group => exact ⟨h₁ ▸ h₂.1, h₂.2⟩
  select _ _ := groupEnds_guarded rfl rfl rfl
  rows_of_select {fingerprints s rows s'} h := by
    change select fingerprints s = _ at h
    rw [select, guarded] at h
    split at h
    · cases h
    · obtain ⟨hrows, -⟩ := Prod.mk.inj h
      exact (Except.ok.inj hrows).symm
  update _ _ := groupEnds_guarded rfl rfl rfl
  delete _ _ := groupEnds_guarded rfl rfl rfl
  insert {events s} hnew hdistinct := by
    have hnone : firstRepeated (s.rows.map (·.event.fingerprint)) events = none :=
      firstRepeated_eq_none_iff.mpr ⟨hnew, hdistinct⟩
    refine groupEnds_guarded (?_ : _ = (Except.ok events.length, s.append events)) rfl rfl
    rw [hnone]

/-- Where no failure was set, a merge succeeds, and sets none. -/
theorem merge_succeeds {s : MemoryStore} (hs : s.failNext = none) (events : List Event) :
    ∃ report s', (mergeEvents store events).run.effect s = (.ok report, s') ∧
      s'.table = s.table.merged events ∧ s'.failNext = none := by
  have hends := keeps_table.merge_ends events s
  generalize (mergeEvents store events).run.effect s = result at hends ⊢
  rcases hends with ⟨-, hfail, -⟩ | @⟨report, s', htable, hmoves⟩
  · cases hs.symm.trans hfail
  · exact ⟨report, s', rfl, htable, Eq.trans hmoves hs⟩

/-! ## Attempts -/

/-- One attempt to merge, with the group of statements that fails if it is sent. -/
def attempt (events : List Event) (fault : Option StatementGroup) (s : MemoryStore) :
    Except Fault MergeReport × MemoryStore :=
  (mergeEvents store events).run.effect { s with failNext := fault }

def attempts (events : List Event) (faults : List (Option StatementGroup)) (s : MemoryStore) :
    MemoryStore :=
  faults.foldl (fun s fault => (attempt events fault s).2) s

section

variable {events : List Event} {s : MemoryStore}

theorem attempt_ends (events : List Event) (fault : Option StatementGroup) (s : MemoryStore) :
    MergeEnds MemoryStore.table Moves events { s with failNext := fault }
      (attempt events fault s) :=
  keeps_table.merge_ends events _

theorem table_attempt_of_ok {fault : Option StatementGroup} {report : MergeReport}
    (h : (attempt events fault s).1 = .ok report) :
    (attempt events fault s).2.table = s.table.merged events := by
  have hends := attempt_ends events fault s
  generalize attempt events fault s = result at h hends ⊢
  rcases hends with _ | ⟨htable, -⟩
  · cases h
  · exact htable

/-- No attempt changes where a merge of the events settles. -/
theorem merged_attempt (fault : Option StatementGroup) :
    (attempt events fault s).2.table.merged events = s.table.merged events := by
  have hends := attempt_ends events fault s
  generalize attempt events fault s = result at hends ⊢
  rcases hends with ⟨htable, -⟩ | ⟨htable, -⟩
  · rw [htable]
    exact EventTable.merged_before _ events _
  · rw [htable]
    exact EventTable.merged_merged

theorem merged_attempts : ∀ (faults : List (Option StatementGroup)) (s : MemoryStore),
    (attempts events faults s).table.merged events = s.table.merged events
  | [], _ => rfl
  | fault :: faults, s => by
      rw [attempts, List.foldl_cons, ← attempts, merged_attempts faults, merged_attempt]

theorem attempt_succeeds (events : List Event) (s : MemoryStore) :
    ∃ report, (attempt events none s).1 = .ok report := by
  have hends := attempt_ends events none s
  generalize attempt events none s = result at hends ⊢
  rcases hends with ⟨-, hfail, -⟩ | @⟨report⟩
  · cases hfail
  · exact ⟨report, rfl⟩

/-- Attempts of which the last one succeeds leave the table, and with it the next id, that one
successful merge leaves on the same store. There always is such a merge, and merging twice is
merging once. -/
theorem attempts_settle {faults : List (Option StatementGroup)} {last : Option StatementGroup}
    {report : MergeReport} (h : (attempt events last (attempts events faults s)).1 = .ok report) :
    (∃ single, (attempt events none s).1 = .ok single) ∧
      (∀ fault single, (attempt events fault s).1 = .ok single →
        (attempt events last (attempts events faults s)).2.table =
          (attempt events fault s).2.table) ∧
      (∃ again, (attempt events none (attempt events none s).2).1 = .ok again) ∧
        (attempt events none (attempt events none s).2).2.table =
          (attempt events none s).2.table := by
  have honce : (attempt events none s).2.table = s.table.merged events := by
    obtain ⟨single, hsingle⟩ := attempt_succeeds events s
    exact table_attempt_of_ok hsingle
  have htwice : (attempt events none (attempt events none s).2).2.table =
      (attempt events none s).2.table := by
    obtain ⟨again, hagain⟩ := attempt_succeeds events (attempt events none s).2
    rw [table_attempt_of_ok hagain, honce]
    exact EventTable.merged_merged
  refine ⟨attempt_succeeds events s, fun fault single hsingle => ?_,
    attempt_succeeds events (attempt events none s).2, htwice⟩
  rw [table_attempt_of_ok h, merged_attempts, table_attempt_of_ok hsingle]

/-- First the delete of a second row fails, then the insert of another fingerprint. -/
theorem attempts_settle_after_two_failures :
    (attempt [sampleEvent 7 40, sampleEvent 9 10] none
        (attempts [sampleEvent 7 40, sampleEvent 9 10] [some .delete, some .insert]
          (ofEvents [sampleEvent 7 10, sampleEvent 7 30]))).1 = .ok ⟨2, 1, 1, 0, 1⟩ ∧
      (attempt [sampleEvent 7 40, sampleEvent 9 10] none
        (attempts [sampleEvent 7 40, sampleEvent 9 10] [some .delete, some .insert]
          (ofEvents [sampleEvent 7 10, sampleEvent 7 30]))).2.table =
      (attempt [sampleEvent 7 40, sampleEvent 9 10] none
        (ofEvents [sampleEvent 7 10, sampleEvent 7 30])).2.table := by
  have hlast : (attempt [sampleEvent 7 40, sampleEvent 9 10] none
      (attempts [sampleEvent 7 40, sampleEvent 9 10] [some .delete, some .insert]
        (ofEvents [sampleEvent 7 10, sampleEvent 7 30]))).1 = .ok ⟨2, 1, 1, 0, 1⟩ := by
    cbv
  obtain ⟨⟨single, hsingle⟩, hsettled, -⟩ := attempts_settle hlast
  exact ⟨hlast, hsettled none single hsingle⟩

end

end MemoryStore

end StopArrivals
