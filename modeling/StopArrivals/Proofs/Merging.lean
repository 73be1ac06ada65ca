import StopArrivals.Proofs.Effects
import StopArrivals.Proofs.Settled

/-!
# How a merge ends

A store keeps a table when each of its calls either does its work on the table or fails and leaves
the table as it was. A merge into such a store either takes the table through all stages or stops
at the group that fails, with the table as the groups before it made it (`Keeps.merge_ends`). What
else a call may do to the state is up to the store: the relation `moves` says so, with no group for
a success and with the group that failed otherwise.
-/

namespace StopArrivals

variable {σ α : Type}

namespace EventTable

def before (t : EventTable) (events : List Event) : StatementGroup → EventTable
  | .select | .update => t
  | .delete => t.raised events
  | .insert => t.trimmed events

theorem merged_before (t : EventTable) (events : List Event) (group : StatementGroup) :
    (t.before events group).merged events = t.merged events := by
  cases group with
  | select | update => rfl
  | delete => exact merged_raised
  | insert => exact merged_trimmed

theorem merged_nil (t : EventTable) : t.merged [] = t := by
  have hsettled : t.Settled [] := fun r _ hf => absurd hf List.not_mem_nil
  exact hsettled.merged_eq_self fun f hf => absurd hf List.not_mem_nil

end EventTable

/-! ## Calls -/

section

variable (table : σ → EventTable) (moves : Option StatementGroup → σ → σ → Prop)

/-- How the call of a group ends as part of a merge. -/
inductive GroupEnds (group : StatementGroup) (work : EventTable → EventTable) (s : σ) :
    Except Fault α × σ → Prop where
  | failed {cause : Cause} {s' : σ} (htable : table s' = table s)
    (hmoves : moves (some group) s s') : GroupEnds group work s (.error (.merge group cause), s')
  | done {a : α} {s' : σ} (htable : table s' = work (table s)) (hmoves : moves none s s') :
    GroupEnds group work s (.ok a, s')

inductive MergeEnds (events : List Event) (s : σ) : Except Fault α × σ → Prop where
  | stopped {group : StatementGroup} {cause : Cause} {s' : σ}
    (htable : table s' = (table s).before events group) (hmoves : moves (some group) s s') :
    MergeEnds events s (.error (.merge group cause), s')
  | done {a : α} {s' : σ} (htable : table s' = (table s).merged events)
    (hmoves : moves none s s') : MergeEnds events s (.ok a, s')

/-- The calls of a store work on a table. An insert has to do so only for events with fingerprints
of their own. -/
structure EventStore.Keeps (S : EventStore σ) : Prop where
  refl : ∀ s, moves none s s
  trans : ∀ {group? s s₁ s₂}, moves none s s₁ → moves group? s₁ s₂ → moves group? s s₂
  select : ∀ fingerprints s,
    GroupEnds table moves .select id s (mergeCall .select (S.select fingerprints) s)
  rows_of_select : ∀ {fingerprints s rows s'}, S.select fingerprints s = (.ok rows, s') →
    rows = (table s).rows.filter (·.event.fingerprint ∈ fingerprints)
  update : ∀ updates s, GroupEnds table moves .update (EventTable.retime updates) s
    (mergeCall .update (S.update updates) s)
  delete : ∀ ids s, GroupEnds table moves .delete (EventTable.remove ids) s
    (mergeCall .delete (S.delete ids) s)
  insert : ∀ {events s},
    (∀ e ∈ events, e.fingerprint ∉ (table s).rows.map (·.event.fingerprint)) →
    events.Pairwise (fun a b => a.fingerprint ≠ b.fingerprint) →
    GroupEnds table moves .insert (EventTable.append events) s
      (mergeCall .insert (S.insert events) s)

end

namespace EventStore.Keeps

variable {S : EventStore σ} {table : σ → EventTable}
  {moves : Option StatementGroup → σ → σ → Prop}

/-- A group without items sends nothing, and nothing is what it has to do. -/
theorem group_ends (h : S.Keeps table moves) {group : StatementGroup} {items : List α}
    {call : List α → Call σ Nat} {work : List α → EventTable → EventTable} {s : σ}
    (hnil : work [] (table s) = table s)
    (hcall : GroupEnds table moves group (work items) s (mergeCall group (call items) s)) :
    GroupEnds table moves group (work items) s (groupCall group items call s) := by
  rw [groupCall]
  by_cases hitems : items.isEmpty
  · rw [if_pos hitems, List.isEmpty_iff.mp hitems]
    exact .done hnil.symm (h.refl s)
  · rwa [if_neg hitems]

theorem apply_ends (h : S.Keeps table moves) (events : List Event) (s : σ) :
    MergeEnds table moves events s ((((table s).plan events).apply S).run.effect s) := by
  rw [effect_apply]
  have hupdate := h.group_ends rfl (h.update ((table s).plan events).updates s)
  generalize groupCall .update ((table s).plan events).updates S.update s = updated at hupdate ⊢
  rcases hupdate with ⟨htable, hmoves⟩ | @⟨_, s₁, htable₁, hmoves₁⟩
  · exact .stopped htable hmoves
  rw [following_ok]
  have hdelete := h.group_ends (table s₁).remove_nil (h.delete ((table s).plan events).deletes s₁)
  generalize groupCall .delete ((table s).plan events).deletes S.delete s₁ = deleted at hdelete ⊢
  rcases hdelete with ⟨htable, hmoves⟩ | @⟨_, s₂, htable₂, hmoves₂⟩
  · exact .stopped (htable.trans htable₁) (h.trans hmoves₁ hmoves)
  rw [following_ok]
  have htrimmed : table s₂ = (table s).trimmed events := by
    rw [htable₂, htable₁]
    rfl
  have hinsert := h.group_ends (table s₂).append_nil
    (h.insert (htrimmed ▸ EventTable.inserts_new) EventTable.inserts_distinct)
  generalize groupCall .insert ((table s).plan events).inserts S.insert s₂ = inserted at hinsert ⊢
  rcases hinsert with ⟨htable, hmoves⟩ | ⟨htable, hmoves⟩
  · exact .stopped (htable.trans htrimmed) (h.trans hmoves₁ (h.trans hmoves₂ hmoves))
  · refine .done ?_ (h.trans hmoves₁ (h.trans hmoves₂ hmoves))
    rw [htable, htrimmed]
    rfl

theorem merge_ends (h : S.Keeps table moves) (events : List Event) (s : σ) :
    MergeEnds table moves events s ((mergeEvents S events).run.effect s) := by
  rw [effect_mergeEvents]
  by_cases hempty : events.isEmpty
  · rw [if_pos hempty, List.isEmpty_iff.mp hempty]
    exact .done (table s).merged_nil.symm (h.refl s)
  rw [if_neg hempty]
  have hselect := h.select (events.map Event.fingerprint) s
  rw [mergeCall] at hselect ⊢
  rcases hcall : S.select (events.map Event.fingerprint) s with ⟨cause | rows, s₁⟩ <;>
    rw [hcall] at hselect
  · rcases hselect with ⟨htable, hmoves⟩
    exact .stopped htable hmoves
  obtain rfl := h.rows_of_select hcall
  rcases hselect with _ | ⟨htable, hmoves⟩
  replace htable : table s₁ = table s := htable
  have happly := h.apply_ends events s₁
  rw [htable] at happly
  show MergeEnds table moves events s
    (following ((((table s).plan events).apply S).run.effect s₁) _)
  generalize (((table s).plan events).apply S).run.effect s₁ = applied at happly ⊢
  rcases happly with ⟨htable₁, hmoves₁⟩ | ⟨htable₁, hmoves₁⟩
  · exact .stopped (htable₁.trans (by rw [htable])) (h.trans hmoves hmoves₁)
  · exact .done (htable₁.trans (by rw [htable])) (h.trans hmoves hmoves₁)

end EventStore.Keeps

end StopArrivals
