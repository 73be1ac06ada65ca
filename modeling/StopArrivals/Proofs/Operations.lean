import StopArrivals.Proofs.Obedience
import StopArrivals.Proofs.Retention

/-!
# Operations on a store in memory

Any operations on a store, one after the other: single calls, plans made by anyone, merges, and
failures that are set for a later call. Whatever they are, and wherever they fail, a store with one
row for each fingerprint stays such a store, an id stands for one stop visit for ever, and a new row
has an id that no row had before (`MemoryStore.representation_kept`).

All of it follows from one relation between the store before a call and the store after it
(`MemoryStore.Evolves`), which the four calls of the store obey.
-/

namespace StopArrivals

namespace MemoryStore

/-! ## From one store to another -/

/-- Each row is an old one, perhaps with another timestamp, or has an id that was not given out. -/
structure Evolves (s s' : MemoryStore) : Prop where
  distinct : (s.rows.map (·.event.fingerprint)).Nodup → (s'.rows.map (·.event.fingerprint)).Nodup
  lastId : s.lastId ≤ s'.lastId
  origin : ∀ r ∈ s'.rows, (∃ x ∈ s.rows, EventTable.Redated x r) ∨ s.lastId < r.id

namespace Evolves

variable {s s₁ s₂ : MemoryStore}

theorem of_rows_eq (hrows : s₁.rows = s.rows) (hlast : s₁.lastId = s.lastId) : s.Evolves s₁ where
  distinct h := hrows ▸ h
  lastId := Int.le_of_eq hlast.symm
  origin r hr := .inl ⟨r, hrows ▸ hr, rfl⟩

theorem trans (h₁ : s.Evolves s₁) (h₂ : s₁.Evolves s₂) : s.Evolves s₂ where
  distinct h := h₂.distinct (h₁.distinct h)
  lastId := Int.le_trans h₁.lastId h₂.lastId
  origin r hr := by
    rcases h₂.origin r hr with ⟨y, hy, hyr⟩ | hnew
    · rcases h₁.origin y hy with ⟨x, hx, hxy⟩ | hnew
      · exact .inl ⟨x, hx, hxy.trans hyr⟩
      · exact .inr (hyr.id_eq ▸ hnew)
    · exact .inr (Int.lt_of_le_of_lt h₁.lastId hnew)

/-- Rows with ids that were given out before are old rows. -/
theorem redated (h : s.Evolves s₁) {x r : StoredEvent} (hx : x ∈ s.rows) (hr : r ∈ s₁.rows)
    (hid : r.id = x.id) : EventTable.Redated x r := by
  rcases h.origin r hr with ⟨y, hy, hyr⟩ | hnew
  · have hyx : y = x := EventTable.eq_of_id_eq (t := s.table) hy hx (hyr.id_eq.symm.trans hid)
    exact hyx ▸ hyr
  · have := s.id_le_lastId x hx
    omega

end Evolves

/-! ## The calls of the store -/

theorem evolves_guarded {α : Type} {group : StatementGroup} {call : Call MemoryStore α}
    {s : MemoryStore} (h : s.Evolves (call s).2) : s.Evolves (guarded group call s).2 := by
  unfold guarded
  split
  · exact .of_rows_eq rfl rfl
  · exact h

theorem redated_retimed : ∀ (updates : List TimestampUpdate) (r : StoredEvent),
    EventTable.Redated r (EventTable.retimed updates r)
  | [], _ => rfl
  | u :: us, r => by
      have hfirst : EventTable.Redated r
          (if r.id = u.id then { r with event.timestamp := u.timestamp } else r) := by
        split <;> rfl
      exact hfirst.trans (redated_retimed us _)

theorem evolves_update (updates : List TimestampUpdate) (s : MemoryStore) :
    s.Evolves (store.update updates s).2 := by
  refine evolves_guarded ⟨fun h => ?_, Int.le_refl _, fun r hr => ?_⟩
  · dsimp only
    rw [EventTable.setTimestamps_eq_map, List.map_map]
    have hsame : ((·.event.fingerprint) ∘ EventTable.retimed updates) =
        fun r : StoredEvent => r.event.fingerprint :=
      funext fun r => (redated_retimed updates r).fingerprint_eq
    rwa [hsame]
  · dsimp only at hr
    rw [EventTable.setTimestamps_eq_map] at hr
    obtain ⟨x, hx, rfl⟩ := List.mem_map.mp hr
    exact .inl ⟨x, hx, redated_retimed updates x⟩

theorem evolves_delete (ids : List Int) (s : MemoryStore) :
    s.Evolves (store.delete ids s).2 := by
  refine evolves_guarded ⟨fun h => ?_, Int.le_refl _, fun r hr => ?_⟩
  · exact h.sublist (List.filter_sublist.map _)
  · exact .inl ⟨r, (List.mem_filter.mp hr).1, rfl⟩

theorem evolves_append {s : MemoryStore} {events : List Event}
    (h : firstRepeated (s.rows.map (·.event.fingerprint)) events = none) :
    s.Evolves (s.append events) := by
  obtain ⟨hnew, hpairwise⟩ := firstRepeated_eq_none_iff.mp h
  refine ⟨fun hdistinct => ?_, ?_, fun r hr => ?_⟩
  · have hevents : (s.append events).rows.map (·.event.fingerprint) =
        s.rows.map (·.event.fingerprint) ++ events.map Event.fingerprint := by
      conv_rhs => rw [← EventTable.map_event_numbered s.lastId events]
      simp only [append, List.map_append, List.map_map, Function.comp_def]
    rw [hevents]
    refine hdistinct.append (List.nodup_iff_pairwise_ne.mpr (List.pairwise_map.mpr hpairwise)) ?_
    intro f hold hf
    obtain ⟨e, he, rfl⟩ := List.mem_map.mp hf
    exact hnew e he hold
  · simp only [append]
    omega
  · rcases List.mem_append.mp hr with hr | hr
    · exact .inl ⟨r, hr, rfl⟩
    · exact .inr (id_of_mem_numbered hr).1

theorem evolves_insert (events : List Event) (s : MemoryStore) :
    s.Evolves (store.insert events s).2 := by
  refine evolves_guarded ?_
  split
  · exact .of_rows_eq rfl rfl
  · next hnone => exact evolves_append hnone

theorem obeys_evolves : store.Obeys Evolves where
  refl _ := .of_rows_eq rfl rfl
  trans := .trans
  select _ _ := evolves_guarded (.of_rows_eq rfl rfl)
  update := evolves_update
  delete := evolves_delete
  insert := evolves_insert

/-! ## Failures

Rows are inserted last, and all of them or none. So whatever fails has inserted nothing, and then
the last id is still the same. -/

inductive NoneNew {ε α : Type} (s : MemoryStore) : Except ε α × MemoryStore → Prop where
  | failed {e : ε} {s' : MemoryStore} (hlast : s'.lastId = s.lastId) : NoneNew s (.error e, s')
  | done {a : α} {s' : MemoryStore} : NoneNew s (.ok a, s')

namespace NoneNew

variable {ε α β : Type} {s : MemoryStore} {x : Except ε α × MemoryStore}

theorem following {f : α → MemoryStore → Except ε β × MemoryStore} (hx : x.2.lastId = s.lastId)
    (hf : ∀ a s₁, NoneNew s₁ (f a s₁)) : NoneNew s (StopArrivals.following x f) := by
  obtain ⟨e | a, s₁⟩ := x
  · exact .failed hx
  · have hnext := hf a s₁
    rw [following_ok]
    generalize f a s₁ = result at hnext ⊢
    cases hnext with
    | failed hlast => exact .failed (hlast.trans hx)
    | done => exact .done

theorem answered (h : NoneNew s x) (g : α → β) :
    NoneNew s (StopArrivals.following x fun a s₁ => (.ok (g a), s₁)) := by
  cases h with
  | failed hlast => exact .failed hlast
  | done => exact .done

/-- An answer that does not take a success for a failure tells when nothing was inserted. -/
theorem lastId_eq (h : NoneNew s x) (failed : Except ε α → Prop) (hok : ∀ a, ¬failed (.ok a))
    (hfailed : failed x.1) : x.2.lastId = s.lastId := by
  cases h with
  | failed hlast => exact hlast
  | done => exact absurd hfailed (hok _)

end NoneNew

theorem lastId_guarded {α : Type} {group : StatementGroup} {call : Call MemoryStore α}
    (h : ∀ s, (call s).2.lastId = s.lastId) (s : MemoryStore) :
    (guarded group call s).2.lastId = s.lastId := by
  unfold guarded
  split
  · rfl
  · exact h s

theorem lastId_select (fingerprints : List Fingerprint) (s : MemoryStore) :
    (store.select fingerprints s).2.lastId = s.lastId := by
  change (select fingerprints s).2.lastId = s.lastId
  unfold select
  exact lastId_guarded (fun _ => rfl) s

theorem lastId_update (updates : List TimestampUpdate) (s : MemoryStore) :
    (store.update updates s).2.lastId = s.lastId := by
  change (update updates s).2.lastId = s.lastId
  unfold update
  exact lastId_guarded (fun _ => rfl) s

theorem lastId_delete (ids : List Int) (s : MemoryStore) :
    (store.delete ids s).2.lastId = s.lastId := by
  change (delete ids s).2.lastId = s.lastId
  unfold delete
  exact lastId_guarded (fun _ => rfl) s

theorem lastId_groupCall {α : Type} {group : StatementGroup} {items : List α}
    {call : List α → Call MemoryStore Nat} (h : ∀ items s, (call items s).2.lastId = s.lastId)
    (s : MemoryStore) : (groupCall group items call s).2.lastId = s.lastId := by
  unfold groupCall
  split
  · rfl
  · rw [state_mergeCall]
    exact h items s

theorem noneNew_guarded {α : Type} {group : StatementGroup} {call : Call MemoryStore α}
    {s : MemoryStore} (h : NoneNew s (call s)) : NoneNew s (guarded group call s) := by
  unfold guarded
  split
  · exact .failed rfl
  · exact h

theorem noneNew_insert (events : List Event) (s : MemoryStore) :
    NoneNew s (store.insert events s) := by
  change NoneNew s (insert events s)
  unfold insert
  refine noneNew_guarded ?_
  split
  · exact .failed rfl
  · exact .done

theorem noneNew_groupCall_insert (events : List Event) (s : MemoryStore) :
    NoneNew s (groupCall .insert events store.insert s) := by
  have hinsert := noneNew_insert events s
  unfold groupCall mergeCall
  split
  · exact .done
  · generalize store.insert events s = result at hinsert ⊢
    cases hinsert with
    | failed hlast => exact .failed hlast
    | done => exact .done

theorem noneNew_apply (plan : MergePlan) (s : MemoryStore) :
    NoneNew s ((plan.apply store).run.effect s) := by
  rw [effect_apply]
  refine .following (lastId_groupCall lastId_update s) fun updated s₁ => ?_
  refine .following (lastId_groupCall lastId_delete s₁) fun deleted s₂ => ?_
  exact (noneNew_groupCall_insert plan.inserts s₂).answered _

theorem noneNew_merge (events : List Event) (s : MemoryStore) :
    NoneNew s ((mergeEvents store events).run.effect s) := by
  rw [effect_mergeEvents]
  split
  · exact .done
  · refine .following ?_ fun stored s₁ => (noneNew_apply _ s₁).answered _
    rw [state_mergeCall]
    exact lastId_select _ s

/-! ## Operations -/

inductive Operation where
  | select (fingerprints : List Fingerprint)
  | update (updates : List TimestampUpdate)
  | delete (ids : List Int)
  | insert (events : List Event)
  /-- A plan made by anyone, for any table. -/
  | apply (plan : MergePlan)
  | merge (delivery : Delivery)
  | failOnce (group : StatementGroup)

inductive Answer where
  | rows (answer : Except Cause (List StoredEvent))
  | count (answer : Except Cause Nat)
  | report (answer : Except Fault MergeReport)
  | done

def Answer.Failed : Answer → Prop
  | rows (.error _) | count (.error _) | report (.error _) => True
  | _ => False

def Operation.perform : Operation → MemoryStore → Answer × MemoryStore
  | .select fingerprints, s => ((store.select fingerprints s).map .rows id)
  | .update updates, s => ((store.update updates s).map .count id)
  | .delete ids, s => ((store.delete ids s).map .count id)
  | .insert events, s => ((store.insert events s).map .count id)
  | .apply plan, s => ((plan.apply store).run.effect s).map .report id
  | .merge delivery, s => ((mergeEvents store delivery.events).run.effect s).map .report id
  | .failOnce group, s => (.done, s.failOnce group)

theorem evolves_perform (op : Operation) (s : MemoryStore) : s.Evolves (op.perform s).2 := by
  cases op with
  | select fingerprints => exact obeys_evolves.select fingerprints s
  | update updates => exact evolves_update updates s
  | delete ids => exact evolves_delete ids s
  | insert events => exact evolves_insert events s
  | apply plan => exact obeys_evolves.apply plan s
  | merge delivery => exact obeys_evolves.merge delivery.events s
  | failOnce group => exact .of_rows_eq rfl rfl

theorem lastId_of_failed {op : Operation} {s : MemoryStore} (h : (op.perform s).1.Failed) :
    (op.perform s).2.lastId = s.lastId := by
  cases op with
  | select fingerprints => exact lastId_select fingerprints s
  | update updates => exact lastId_update updates s
  | delete ids => exact lastId_delete ids s
  | insert events =>
    exact (noneNew_insert events s).lastId_eq (fun x => (Answer.count x).Failed)
      (fun _ => not_false) h
  | apply plan =>
    exact (noneNew_apply plan s).lastId_eq (fun x => (Answer.report x).Failed)
      (fun _ => not_false) h
  | merge delivery =>
    exact (noneNew_merge delivery.events s).lastId_eq (fun x => (Answer.report x).Failed)
      (fun _ => not_false) h
  | failOnce group => rfl

/-! ## Histories of operations -/

/-- The store that some events become after some operations. -/
def reached (events : List Event) (ops : List Operation) : MemoryStore :=
  ops.foldl (fun s op => (op.perform s).2) (ofEvents events)

theorem evolves_foldl (ops : List Operation) (s : MemoryStore) :
    s.Evolves (ops.foldl (fun s op => (op.perform s).2) s) := by
  induction ops generalizing s with
  | nil => exact .of_rows_eq rfl rfl
  | cons op ops ih => exact (evolves_perform op s).trans (ih _)

theorem evolves_reached (events : List Event) {earlier ops : List Operation}
    (h : earlier <+: ops) : (reached events earlier).Evolves (reached events ops) := by
  obtain ⟨rest, rfl⟩ := h
  rw [reached, reached, List.foldl_append]
  exact evolves_foldl rest _

/-- Whatever is done to a store that began with events of different fingerprints: fingerprints stay
different; a row is an old one, perhaps with another timestamp, or has an id greater than any there
ever was; an id is that of the same stop visit for ever; and what fails, in its insert or before,
inserts nothing. -/
theorem representation_kept {events : List Event} (hevents : (events.map Event.fingerprint).Nodup)
    (past : List Operation) (next : Operation) :
    ((reached events (past ++ [next])).rows.map (·.event.fingerprint)).Nodup ∧
    (∀ r ∈ (reached events (past ++ [next])).rows,
      (∃ x ∈ (reached events past).rows, EventTable.Redated x r) ∨
      ∀ earlier, earlier <+: past → ∀ x ∈ (reached events earlier).rows, x.id < r.id) ∧
    (∀ earlier, earlier <+: past → ∀ x ∈ (reached events earlier).rows,
      ∀ r ∈ (reached events (past ++ [next])).rows, r.id = x.id → EventTable.Redated x r) ∧
    ((next.perform (reached events past)).1.Failed →
      ∀ r ∈ (reached events (past ++ [next])).rows,
        ∃ x ∈ (reached events past).rows, EventTable.Redated x r) := by
  have hstep : (reached events past).Evolves (reached events (past ++ [next])) :=
    evolves_reached events (List.prefix_append ..)
  refine ⟨?_, fun r hr => ?_, fun earlier hearlier x hx r hr hid => ?_, fun hfailed r hr => ?_⟩
  · have hstart : (reached events []).rows.map (·.event.fingerprint) =
        events.map Event.fingerprint := by
      conv_rhs => rw [← EventTable.map_event_numbered 0 events, List.map_map]
      rfl
    exact (evolves_reached events List.nil_prefix).distinct (hstart ▸ hevents)
  · refine (hstep.origin r hr).imp_right fun hnew earlier hearlier x hx => ?_
    have hle := (reached events earlier).id_le_lastId x hx
    have hlast := (evolves_reached events hearlier).lastId
    omega
  · exact (evolves_reached events (hearlier.trans (List.prefix_append ..))).redated hx hr hid
  · refine (hstep.origin r hr).resolve_right fun hnew => ?_
    have hsame : (reached events (past ++ [next])).lastId = (reached events past).lastId := by
      rw [reached, List.foldl_append]
      exact lastId_of_failed hfailed
    have hle := (reached events (past ++ [next])).id_le_lastId r hr
    omega

/-- A row is deleted and its fingerprint inserted again; then an insert is refused for the second of
its events. -/
theorem representation_kept_after_refused_insert :
    ([sampleEvent 7 10, sampleEvent 9 20].map Event.fingerprint).Nodup ∧
    ((Operation.insert [sampleEvent 11 40, sampleEvent 9 50]).perform
      (reached [sampleEvent 7 10, sampleEvent 9 20]
        [.delete [2], .insert [sampleEvent 9 30]])).1.Failed ∧
    ∀ r ∈ (reached [sampleEvent 7 10, sampleEvent 9 20]
        [.delete [2], .insert [sampleEvent 9 30],
          .insert [sampleEvent 11 40, sampleEvent 9 50]]).rows,
      ∃ x ∈ (reached [sampleEvent 7 10, sampleEvent 9 20]
        [.delete [2], .insert [sampleEvent 9 30]]).rows, EventTable.Redated x r := by
  have hevents : ([sampleEvent 7 10, sampleEvent 9 20].map Event.fingerprint).Nodup := by decide
  have hfailed : ((Operation.insert [sampleEvent 11 40, sampleEvent 9 50]).perform
      (reached [sampleEvent 7 10, sampleEvent 9 20]
        [.delete [2], .insert [sampleEvent 9 30]])).1.Failed := trivial
  exact ⟨hevents, hfailed, (representation_kept hevents _ _).2.2.2 hfailed⟩

end MemoryStore

end StopArrivals
