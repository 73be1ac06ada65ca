import StopArrivals.Proofs.CallLog
import StopArrivals.Proofs.Retry

/-!
# Plans that are applied

Any plan may be applied to a store in memory, also one that no merge would make: its ids may be
unknown or repeated, and its inserts may repeat fingerprints. A group that has something to do is
blocked if it is the one that must fail, or if it inserts what the table does not admit after the
groups before it (`MergePlan.Blocked`). The first blocked group ends the application with a fault of
its name; the groups before it have done their work, and nothing else has happened
(`MemoryStore.apply_stops_at_first_blocked`).
-/

namespace StopArrivals

variable {ω α : Type}

/-! ## Stores that keep a log -/

def EventStore.logged (S : EventStore ω) : EventStore (ω × List CollaboratorCall) where
  select fingerprints := loggedCall (.select fingerprints) (S.select fingerprints)
  update updates := loggedCall (.update updates) (S.update updates)
  delete ids := loggedCall (.delete ids) (S.delete ids)
  insert events := loggedCall (.insert events) (S.insert events)

theorem EventStore.logged_shows (S : EventStore ω) : S.logged.Shows Prod.fst S :=
  ⟨fun _ _ => rfl, fun _ _ => rfl, fun _ _ => rfl, fun _ _ => rfl⟩

/-- A group without items is not written down, for it is not called. -/
theorem groupCall_logged (group : StatementGroup) (items : List α)
    (entry : List α → CollaboratorCall) (call : List α → Call ω Nat) (w : ω)
    (log : List CollaboratorCall) :
    groupCall group items (fun items => loggedCall (entry items) (call items)) (w, log) =
      ((groupCall group items call w).1, (groupCall group items call w).2,
        log ++ if items = [] then [] else [entry items]) := by
  rw [groupCall, groupCall]
  by_cases hitems : items = []
  · simp [hitems]
  · rw [if_neg (by simpa using hitems), if_neg (by simpa using hitems), if_neg hitems]
    rw [mergeCall, mergeCall, loggedCall]
    rcases call items w with ⟨_ | _, _⟩ <;> rfl

/-! ## What a plan asks for -/

namespace EventTable

/-- The events can be inserted: their fingerprints are new, and each of them is there once. -/
def Admits (t : EventTable) (events : List Event) : Prop :=
  (∀ e ∈ events, e.fingerprint ∉ t.rows.map (·.event.fingerprint)) ∧
    events.Pairwise fun a b => a.fingerprint ≠ b.fingerprint

instance (t : EventTable) (events : List Event) : Decidable (t.Admits events) :=
  inferInstanceAs (Decidable (_ ∧ _))

theorem admits_nil (t : EventTable) : t.Admits [] :=
  ⟨fun _ h => absurd h List.not_mem_nil, List.Pairwise.nil⟩

/-- The table after those groups of the plan that come before the given one. -/
def appliedBefore (t : EventTable) (plan : MergePlan) : StatementGroup → EventTable
  | .select | .update => t
  | .delete => t.retime plan.updates
  | .insert => (t.retime plan.updates).remove plan.deletes

def applied (t : EventTable) (plan : MergePlan) : EventTable :=
  ((t.retime plan.updates).remove plan.deletes).append plan.inserts

end EventTable

namespace MergePlan

/-- The plan has something to do for the group. -/
def Calls (plan : MergePlan) : StatementGroup → Prop
  | .select => False
  | .update => plan.updates ≠ []
  | .delete => plan.deletes ≠ []
  | .insert => plan.inserts ≠ []

instance (plan : MergePlan) : DecidablePred plan.Calls
  | .select => inferInstanceAs (Decidable False)
  | .update => inferInstanceAs (Decidable (plan.updates ≠ []))
  | .delete => inferInstanceAs (Decidable (plan.deletes ≠ []))
  | .insert => inferInstanceAs (Decidable (plan.inserts ≠ []))

/-- The group will be called, and its call will fail. -/
def Blocked (plan : MergePlan) (s : MemoryStore) (group : StatementGroup) : Prop :=
  plan.Calls group ∧ (s.failNext = some group ∨
    group = .insert ∧ ¬(s.table.appliedBefore plan .insert).Admits plan.inserts)

instance (plan : MergePlan) (s : MemoryStore) : DecidablePred (plan.Blocked s) :=
  fun _ => inferInstanceAs (Decidable (_ ∧ _))

def firstBlocked (plan : MergePlan) (s : MemoryStore) : Option StatementGroup :=
  [StatementGroup.update, .delete, .insert].find? fun group => plan.Blocked s group

theorem blocked_update {plan : MergePlan} {s : MemoryStore} :
    plan.Blocked s .update ↔ plan.updates ≠ [] ∧ s.failNext = some .update := by
  simp [Blocked, Calls]

theorem blocked_delete {plan : MergePlan} {s : MemoryStore} :
    plan.Blocked s .delete ↔ plan.deletes ≠ [] ∧ s.failNext = some .delete := by
  simp [Blocked, Calls]

theorem blocked_insert {plan : MergePlan} {s : MemoryStore} :
    plan.Blocked s .insert ↔ plan.inserts ≠ [] ∧ (s.failNext = some .insert ∨
      ¬(s.table.appliedBefore plan .insert).Admits plan.inserts) := by
  simp [Blocked, Calls]

theorem firstBlocked_eq (plan : MergePlan) (s : MemoryStore) :
    plan.firstBlocked s =
      if plan.Blocked s .update then some .update
      else if plan.Blocked s .delete then some .delete
      else if plan.Blocked s .insert then some .insert
      else none := by
  simp only [firstBlocked, List.find?_cons, List.find?_nil]
  split_ifs <;> simp_all

theorem firstBlocked_eq_none_iff {plan : MergePlan} {s : MemoryStore} :
    plan.firstBlocked s = none ↔ (∀ group, plan.Calls group → s.failNext ≠ some group) ∧
      (s.table.appliedBefore plan .insert).Admits plan.inserts := by
  rw [firstBlocked, List.find?_eq_none]
  simp only [decide_eq_true_eq]
  constructor
  · intro hfree
    constructor
    · intro group hcalls hfail
      have hmem : group ∈ [StatementGroup.update, .delete, .insert] := by
        cases group with
        | select => exact absurd hcalls id
        | update | delete | insert => simp
      exact hfree group hmem ⟨hcalls, .inl hfail⟩
    · by_contra hadmits
      have hcalls : plan.Calls .insert := by
        intro hnil
        rw [hnil] at hadmits
        exact hadmits (EventTable.admits_nil _)
      exact hfree .insert (by simp) ⟨hcalls, .inr ⟨rfl, hadmits⟩⟩
  · rintro ⟨hset, hadmits⟩ group - ⟨hcalls, hfail | ⟨-, hrefused⟩⟩
    · exact hset group hcalls hfail
    · exact hrefused hadmits

/-- The call of a group; without items there is none. -/
def callsOf (plan : MergePlan) : StatementGroup → List CollaboratorCall
  | .select => []
  | .update => if plan.updates = [] then [] else [.update plan.updates]
  | .delete => if plan.deletes = [] then [] else [.delete plan.deletes]
  | .insert => if plan.inserts = [] then [] else [.insert plan.inserts]

/-- The calls up to and with the one of the given group. -/
def callsThrough (plan : MergePlan) : StatementGroup → List CollaboratorCall
  | .select => []
  | .update => plan.callsOf .update
  | .delete => plan.callsOf .update ++ plan.callsOf .delete
  | .insert => plan.callsOf .update ++ plan.callsOf .delete ++ plan.callsOf .insert

end MergePlan

namespace MemoryStore

/-! ## Single groups -/

/-- The store with other rows. -/
def withTable (s : MemoryStore) (t : EventTable) : MemoryStore :=
  ⟨t.rows, t.lastId, s.failNext, t.ascending, t.id_le_lastId⟩

@[simp] theorem table_withTable (s : MemoryStore) (t : EventTable) :
    (s.withTable t).table = t := rfl

@[simp] theorem failNext_withTable (s : MemoryStore) (t : EventTable) :
    (s.withTable t).failNext = s.failNext := rfl

/-- The store after a failure of the group, which is used up if it was set. -/
def spent (s : MemoryStore) (group : StatementGroup) : MemoryStore :=
  { s with failNext := if s.failNext = some group then none else s.failNext }

inductive GroupRuns (group : StatementGroup) (blocked : Prop) (count : Nat) (t : EventTable)
    (s : MemoryStore) : Except Fault Nat × MemoryStore → Prop where
  | refused {cause : Cause} (hblocked : blocked) :
    GroupRuns group blocked count t s (.error (.merge group cause), s.spent group)
  | served (hfree : ¬blocked) : GroupRuns group blocked count t s (.ok count, s.withTable t)

theorem spent_of_failNext {s : MemoryStore} {group : StatementGroup}
    (h : s.failNext = some group) : s.spent group = { s with failNext := none } := by
  rw [spent, if_pos h]

theorem spent_of_failNext_ne {s : MemoryStore} {group : StatementGroup}
    (h : s.failNext ≠ some group) : s.spent group = s := by
  rw [spent, if_neg h]

/-- A group whose call does not fail unless it must. -/
theorem groupRuns_guarded {group : StatementGroup} {items : List α}
    {call : List α → Call MemoryStore Nat} {count : Nat} {t : EventTable} {s : MemoryStore}
    (hnil : items = [] → count = 0 ∧ t = s.table)
    (hcall : call items s = guarded group (fun s => (.ok count, s.withTable t)) s) :
    GroupRuns group (items ≠ [] ∧ s.failNext = some group) count t s
      (groupCall group items call s) := by
  rw [groupCall]
  by_cases hitems : items = []
  · obtain ⟨rfl, rfl⟩ := hnil hitems
    rw [if_pos (by simpa using hitems)]
    exact .served fun h => h.1 hitems
  · rw [if_neg (by simpa using hitems), mergeCall, hcall, guarded]
    by_cases hfail : s.failNext = some group
    · rw [if_pos hfail, ← spent_of_failNext hfail]
      exact .refused ⟨hitems, hfail⟩
    · rw [if_neg hfail]
      exact .served fun h => hfail h.2

theorem update_runs (updates : List TimestampUpdate) (s : MemoryStore) :
    GroupRuns .update (updates ≠ [] ∧ s.failNext = some .update)
      (updates.filter fun u => u.id ∈ s.rows.map StoredEvent.id).length
      (s.table.retime updates) s (groupCall .update updates store.update s) :=
  groupRuns_guarded (by rintro rfl; exact ⟨rfl, rfl⟩) rfl

theorem delete_runs (ids : List Int) (s : MemoryStore) :
    GroupRuns .delete (ids ≠ [] ∧ s.failNext = some .delete)
      ((s.rows.map StoredEvent.id).filter (· ∈ ids)).length
      (s.table.remove ids) s (groupCall .delete ids store.delete s) := by
  have hcount : s.rows.length - (s.rows.filter fun r => r.id ∉ ids).length =
      ((s.rows.map StoredEvent.id).filter (· ∈ ids)).length := by
    have hsplit := List.length_eq_length_filter_add (l := s.rows) fun r => r.id ∈ ids
    rw [List.filter_map, List.length_map]
    simp only [decide_not, Function.comp_def]
    omega
  rw [← hcount]
  refine groupRuns_guarded ?_ rfl
  rintro rfl
  exact ⟨by simp, s.table.remove_nil⟩

theorem insert_runs (events : List Event) (s : MemoryStore) :
    GroupRuns .insert (events ≠ [] ∧ (s.failNext = some .insert ∨ ¬s.table.Admits events))
      events.length (s.table.append events) s (groupCall .insert events store.insert s) := by
  by_cases hadmits : s.table.Admits events
  · have hnone : firstRepeated (s.rows.map (·.event.fingerprint)) events = none :=
      firstRepeated_eq_none_iff.mpr hadmits
    simp only [hadmits, not_true_eq_false, or_false]
    refine groupRuns_guarded ?_ ?_
    · rintro rfl
      exact ⟨rfl, s.table.append_nil⟩
    · show insert events s = _
      simp only [insert, guarded, hnone]
      rfl
  · have hne : events ≠ [] := by
      rintro rfl
      exact hadmits s.table.admits_nil
    obtain ⟨f, hf⟩ : ∃ f, firstRepeated (s.rows.map (·.event.fingerprint)) events = some f := by
      refine Option.ne_none_iff_exists'.mp fun hnone => hadmits ?_
      exact firstRepeated_eq_none_iff.mp hnone
    obtain ⟨cause, hcall⟩ : ∃ cause, store.insert events s = (.error cause, s.spent .insert) := by
      show ∃ cause, insert events s = (.error cause, s.spent .insert)
      rw [insert, guarded]
      by_cases hfail : s.failNext = some .insert
      · rw [if_pos hfail, spent_of_failNext hfail]
        exact ⟨_, rfl⟩
      · rw [if_neg hfail, hf, spent_of_failNext_ne hfail]
        exact ⟨_, rfl⟩
    rw [groupCall, if_neg (by simpa using hne), mergeCall, hcall]
    exact .refused ⟨hne, .inr hadmits⟩

/-- A group in a plan ends it or lets it go on. -/
theorem GroupRuns.following {β : Type} {group : StatementGroup} {blocked : Prop} {count : Nat}
    {t : EventTable} {s : MemoryStore} {items : List α} {call : List α → Call MemoryStore Nat}
    (h : GroupRuns group blocked count t s (groupCall group items call s))
    {entry : List α → CollaboratorCall} {log : List CollaboratorCall}
    {next : Nat → MemoryStore × List CollaboratorCall →
      Except Fault β × (MemoryStore × List CollaboratorCall)}
    {P : Except Fault β × (MemoryStore × List CollaboratorCall) → Prop}
    (hrefused : ∀ cause, blocked → P (.error (.merge group cause), s.spent group,
      log ++ if items = [] then [] else [entry items]))
    (hserved : ¬blocked → P (next count (s.withTable t,
      log ++ if items = [] then [] else [entry items]))) :
    P (StopArrivals.following (groupCall group items
      (fun items => loggedCall (entry items) (call items)) (s, log)) next) := by
  rw [groupCall_logged]
  generalize groupCall group items call s = result at h ⊢
  cases h with
  | @refused cause hblocked => exact hrefused cause hblocked
  | served hfree => exact hserved hfree

/-! ## Whole plans -/

/-- How the application of a plan ends: its result, the store, and the calls that were made. -/
inductive PlanRuns (plan : MergePlan) (s : MemoryStore) :
    Except Fault MergeReport × MemoryStore × List CollaboratorCall → Prop where
  | stopped {group : StatementGroup} {cause : Cause}
    (hfirst : plan.firstBlocked s = some group) :
    PlanRuns plan s (.error (.merge group cause),
      (s.withTable (s.table.appliedBefore plan group)).spent group, plan.callsThrough group)
  | applied (hnone : plan.firstBlocked s = none) :
    PlanRuns plan s
      (.ok ⟨0, 0, (plan.updates.filter fun u => u.id ∈ s.rows.map StoredEvent.id).length,
          ((s.rows.map StoredEvent.id).filter (· ∈ plan.deletes)).length, plan.inserts.length⟩,
        s.withTable (s.table.applied plan), plan.callsThrough .insert)

theorem apply_runs (plan : MergePlan) (s : MemoryStore) :
    PlanRuns plan s ((plan.apply store.logged).run.effect (s, [])) := by
  have hupdate := update_runs plan.updates s
  have hdelete := delete_runs plan.deletes (s.withTable (s.table.appliedBefore plan .delete))
  have hinsert := insert_runs plan.inserts (s.withTable (s.table.appliedBefore plan .insert))
  -- No group changes which failure is set, nor do the updates change which ids there are.
  have hids : (s.withTable (s.table.appliedBefore plan .delete)).rows.map StoredEvent.id =
    s.rows.map StoredEvent.id := setTimestamps_ids plan.updates s.rows
  rw [← MergePlan.blocked_update] at hupdate
  rw [failNext_withTable, ← MergePlan.blocked_delete, hids] at hdelete
  rw [failNext_withTable, table_withTable, ← MergePlan.blocked_insert] at hinsert
  have hfirst := plan.firstBlocked_eq s
  rw [effect_apply]
  refine hupdate.following (fun cause hblocked => ?_) fun hfree => ?_
  · rw [if_pos hblocked] at hfirst
    exact .stopped hfirst
  rw [if_neg hfree] at hfirst
  refine hdelete.following (fun cause hblocked => ?_) fun hfree => ?_
  · rw [if_pos hblocked] at hfirst
    exact .stopped hfirst
  rw [if_neg hfree] at hfirst
  refine hinsert.following (fun cause hblocked => ?_) fun hfree => ?_
  · rw [if_pos hblocked] at hfirst
    exact .stopped hfirst
  rw [if_neg hfree] at hfirst
  exact .applied hfirst

/-- A plan is applied if none of the groups it calls is blocked. Otherwise it stops at the first that
is, and what the groups before did is kept. Writing down the calls changes nothing. -/
theorem apply_stops_at_first_blocked (plan : MergePlan) (s : MemoryStore) :
    ((∃ report, ((plan.apply store).run.effect s).1 = .ok report) ↔
      (∀ group, plan.Calls group → s.failNext ≠ some group) ∧
        (s.table.appliedBefore plan .insert).Admits plan.inserts) ∧
    PlanRuns plan s ((plan.apply store.logged).run.effect (s, [])) ∧
    seen Prod.fst ((plan.apply store.logged).run.effect (s, [])) =
      (plan.apply store).run.effect s := by
  have hruns := apply_runs plan s
  have hseen := store.logged_shows.effect_apply plan (s, [])
  refine ⟨?_, hruns, hseen⟩
  rw [← hseen, ← MergePlan.firstBlocked_eq_none_iff]
  generalize (plan.apply store.logged).run.effect (s, []) = result at hruns
  cases hruns with
  | stopped hfirst => simp [seen, hfirst]
  | applied hnone => simp [seen, hnone]

/-- What is deleted is not in the way of what is inserted. -/
example :
    (MergePlan.mk [] [1] [sampleEvent 7 20]).firstBlocked (ofEvents [sampleEvent 7 10]) = none ∧
      (MergePlan.mk [] [] [sampleEvent 7 20]).firstBlocked (ofEvents [sampleEvent 7 10]) =
        some .insert := by
  decide

end MemoryStore

end StopArrivals
