import Mathlib.Data.Set.List
import StopArrivals.Proofs.Retry
import StopArrivals.Proofs.TableServer
import StopArrivals.Proofs.Transcript

/-!
# A database and a store in memory

A merge into a database whose event table holds the rows of a store in memory does what the merge
does in memory. If no statement is refused, both report the same and have the same rows in the end,
but for the ids of new rows. If a statement is refused, both stop at its group with the same rows
(`Server.ServesTable.merge_agrees`). The plan is made from the rows that the server sends, and with
one row for each fingerprint their order makes no difference to it.
-/

namespace StopArrivals

variable {ω α β : Type}

/-! ## Refused statements -/

def Statement.group? : Statement → Option StatementGroup
  | selectEvents _ => some .select
  | updateEvents _ => some .update
  | deleteEvents _ => some .delete
  | beginTransaction | insertEvents _ | commit => some .insert
  | _ => none

/-- The group of the first statement that is refused. -/
def firstRefused (refuses : Statement → Bool) (statements : List Statement) :
    Option StatementGroup :=
  (statements.find? refuses).bind Statement.group?

section

variable {refuses : Statement → Bool} {a b : List Statement} {group : StatementGroup}

theorem firstRefused_append_of_any (hgroup : ∀ x ∈ a, x.group? = some group)
    (h : a.any refuses = true) : firstRefused refuses (a ++ b) = some group := by
  obtain ⟨x, hx⟩ := Option.isSome_iff_exists.mp ((List.find?_isSome (p := refuses)).mpr
    (List.any_eq_true.mp h))
  rw [firstRefused, List.find?_append, hx]
  exact hgroup x (List.mem_of_find?_eq_some hx)

theorem firstRefused_append_of_not (h : a.any refuses = false) :
    firstRefused refuses (a ++ b) = firstRefused refuses b := by
  have hnone : a.find? refuses = none :=
    List.find?_eq_none.mpr fun x hx hrefuses =>
      Bool.eq_false_iff.mp h (List.any_eq_true.mpr ⟨x, hx, hrefuses⟩)
  rw [firstRefused, List.find?_append, hnone, Option.none_or, ← firstRefused]

theorem firstRefused_ne (hother : ∀ x ∈ b, x.group? ≠ some group) :
    firstRefused refuses b ≠ some group := by
  intro h
  obtain ⟨x, hx, hgroup⟩ := Option.bind_eq_some_iff.mp h
  exact hother x (List.mem_of_find?_eq_some hx) hgroup

end

/-! ## Two runs side by side -/

section

variable (table : ω → TableState) (refuses : Statement → Bool) (fault : Option StatementGroup)

/-- Two states from which `rest` is still to be sent: no transaction is open in the one, and the
call that is to fail in the other is the one in which a statement is refused. -/
structure Ready (rest : List Statement) (t : RowTable) (w : ω) (s : MemoryStore) : Prop where
  table : table w = ⟨t, none⟩
  failNext : s.failNext = fault
  fault : fault = firstRefused refuses rest

/-- How a part of a merge ends in both: at the same failure and with the same rows, or ready to go
on with what is left. -/
inductive Agree (rest : List Statement) (does : α → α → RowTable → MemoryStore → Prop) :
    Except Fault α × ω → Except Fault α × MemoryStore → Prop where
  | stopped {group : StatementGroup} {cause cause' : Cause} {w : ω} {s : MemoryStore}
    (hfault : fault = some group) (hrows : (table w).committed.Holds s.rows) :
    Agree rest does (.error (.merge group cause), w) (.error (.merge group cause'), s)
  | done {a b : α} {t : RowTable} {w : ω} {s : MemoryStore}
    (hready : Ready table refuses fault rest t w s) (hdoes : does a b t s) :
    Agree rest does (.ok a, w) (.ok b, s)

end

section

variable {table : ω → TableState} {refuses : Statement → Bool} {fault : Option StatementGroup}
  {a rest : List Statement} {t : RowTable} {w : ω} {s : MemoryStore}

theorem Agree.following {does : α → α → RowTable → MemoryStore → Prop}
    {does' : β → β → RowTable → MemoryStore → Prop} {x : Except Fault α × ω}
    {y : Except Fault α × MemoryStore} {f : α → ω → Except Fault β × ω}
    {g : α → MemoryStore → Except Fault β × MemoryStore}
    (h : Agree table refuses fault a does x y)
    (hnext : ∀ {a' b t w s}, Ready table refuses fault a t w s → does a' b t s →
      Agree table refuses fault rest does' (f a' w) (g b s)) :
    Agree table refuses fault rest does' (following x f) (following y g) := by
  cases h with
  | stopped hfault hrows => exact .stopped hfault hrows
  | done hready hdoes => exact hnext hready hdoes

/-- The calls of one group. The call in memory fails exactly if a statement of the other is
refused. -/
theorem agree_mergeCall {group : StatementGroup} {does : α → α → RowTable → MemoryStore → Prop}
    {does' : α → RowTable → Prop} {call : Call ω α} {call' : Call MemoryStore α}
    (ha : ∀ x ∈ a, x.group? = some group) (hrest : ∀ x ∈ rest, x.group? ≠ some group)
    (hready : Ready table refuses fault (a ++ rest) t w s) (hrows : t.Holds s.rows)
    (hserver : OperationEnds table refuses t a does' (call w))
    (hmemory : ∀ {b t'}, does' b t' →
      ∃ c s', call' s = (.ok c, s') ∧ s'.failNext = s.failNext ∧ does b c t' s') :
    Agree table refuses fault rest does (mergeCall group call w)
      (mergeCall group (MemoryStore.guarded group call') s) := by
  rw [mergeCall, mergeCall, MemoryStore.guarded]
  generalize call w = result at hserver ⊢
  cases hserver with
  | refused hrefused htable =>
    have hgroup : fault = some group :=
      hready.fault.trans (firstRefused_append_of_any ha hrefused)
    rw [if_pos (hready.failNext.trans hgroup)]
    exact .stopped hgroup (htable ▸ hrows)
  | done hserved htable hdoes =>
    have hgroup : fault = firstRefused refuses rest :=
      hready.fault.trans (firstRefused_append_of_not hserved)
    have hne : s.failNext ≠ some group := by
      rw [hready.failNext, hgroup]
      exact firstRefused_ne hrest
    obtain ⟨c, s', hcall, hfail, hdoes⟩ := hmemory hdoes
    rw [if_neg hne, hcall]
    exact .done ⟨htable, hfail.trans hready.failNext, hgroup⟩ hdoes

/-- A group without items sends nothing on either side. -/
theorem agree_groupCall {group : StatementGroup} {items : List β}
    {does : Nat → Nat → RowTable → MemoryStore → Prop} {does' : Nat → RowTable → Prop}
    {call : List β → Call ω Nat} {call' : List β → Call MemoryStore Nat}
    (hnone : items.isEmpty = true → a = [] ∧ does 0 0 t s)
    (ha : ∀ x ∈ a, x.group? = some group) (hrest : ∀ x ∈ rest, x.group? ≠ some group)
    (hready : Ready table refuses fault (a ++ rest) t w s) (hrows : t.Holds s.rows)
    (hserver : OperationEnds table refuses t a does' (call items w))
    (hmemory : ∀ {b t'}, does' b t' →
      ∃ c s', call' items s = (.ok c, s') ∧ s'.failNext = s.failNext ∧ does b c t' s') :
    Agree table refuses fault rest does (groupCall group items call w)
      (groupCall group items (fun items => MemoryStore.guarded group (call' items)) s) := by
  rw [groupCall, groupCall]
  by_cases hitems : items.isEmpty
  · obtain ⟨rfl, hdoes⟩ := hnone hitems
    rw [if_pos hitems, if_pos hitems]
    exact .done hready hdoes
  · rw [if_neg hitems, if_neg hitems]
    exact agree_mergeCall ha hrest hready hrows hserver hmemory

end

/-! ## The groups of a merge -/

theorem statementFor_eq_nil {statement : List α → Statement} {items : List α}
    (h : items.isEmpty = true) : Server.statementFor statement items = [] := if_pos h

theorem group?_statementFor {statement : List α → Statement} {items : List α}
    {group : StatementGroup} (h : ∀ items, (statement items).group? = some group) :
    ∀ x ∈ Server.statementFor statement items, x.group? = some group := by
  intro x hx
  rw [Server.statementFor] at hx
  split at hx
  · cases hx
  · exact List.mem_singleton.mp hx ▸ h items

theorem group?_insertStatements {events : List Event} :
    ∀ x ∈ Server.insertStatements events, x.group? = some .insert := by
  intro x hx
  rw [Server.insertStatements] at hx
  split at hx
  · cases hx
  rcases List.mem_cons.mp hx with rfl | hx
  · rfl
  rcases List.mem_append.mp hx with hx | hx
  · obtain ⟨chunk, -, rfl⟩ := List.mem_map.mp hx
    rfl
  · exact List.mem_singleton.mp hx ▸ rfl

theorem group?_ne {a : List Statement} {group other : StatementGroup}
    (h : ∀ x ∈ a, x.group? = some group) (hne : group ≠ other) : ∀ x ∈ a, x.group? ≠ some other :=
  fun x hx heq => hne (Option.some.inj ((h x hx).symm.trans heq))

theorem group?_statements_ne {plan : MergePlan} :
    ∀ x ∈ plan.statements, x.group? ≠ some .select :=
  List.forall_mem_append.mpr
    ⟨group?_ne (group?_statementFor fun _ => rfl) StatementGroup.noConfusion,
      List.forall_mem_append.mpr
        ⟨group?_ne (group?_statementFor fun _ => rfl) StatementGroup.noConfusion,
          group?_ne group?_insertStatements StatementGroup.noConfusion⟩⟩

namespace Server.ServesTable

variable {S : Server ω} {table : ω → TableState} {refuses : Statement → Bool}
  {fault : Option StatementGroup} {rest : List Statement} {t : RowTable} {w : ω} {s : MemoryStore}

theorem agree_select (hS : S.ServesTable table refuses) {fingerprints : List Fingerprint}
    (hrest : ∀ x ∈ rest, x.group? ≠ some .select)
    (hready : Ready table refuses fault (statementFor .selectEvents fingerprints ++ rest) t w s)
    (hrows : t.Holds s.rows) :
    Agree table refuses fault rest
      (fun found found' t' s' => found.Perm found' ∧
        found' = s.rows.filter (·.event.fingerprint ∈ fingerprints) ∧ s'.table = s.table ∧
          t'.Holds s'.rows)
      (mergeCall .select (S.selectEvents fingerprints) w)
      (mergeCall .select (MemoryStore.select fingerprints) s) := by
  refine agree_mergeCall (group?_statementFor fun _ => rfl) hrest hready hrows
    (hS.selectEvents_ends hready.table hrows fingerprints) fun {found t'} h => ?_
  obtain ⟨rfl, hperm⟩ := h
  exact ⟨_, s, rfl, rfl, hperm, rfl, rfl, hrows⟩

theorem agree_update (hS : S.ServesTable table refuses) {updates : List TimestampUpdate}
    (hids : (updates.map (·.id)).Nodup) (hrest : ∀ x ∈ rest, x.group? ≠ some .update)
    (hready : Ready table refuses fault (statementFor .updateEvents updates ++ rest) t w s)
    (hrows : t.Holds s.rows) :
    Agree table refuses fault rest
      (fun n m t' s' => n = m ∧ s'.table = s.table.retime updates ∧ t'.Holds s'.rows)
      (groupCall .update updates S.updateEvents w)
      (groupCall .update updates MemoryStore.update s) := by
  refine agree_groupCall (fun hnone => ⟨statementFor_eq_nil hnone, rfl, ?_, hrows⟩)
    (group?_statementFor fun _ => rfl) hrest hready hrows
    (hS.updateEvents_ends hready.table hrows hids) fun {n t'} h => ?_
  · rw [List.isEmpty_iff.mp hnone]
    rfl
  · exact ⟨_, _, rfl, rfl, h.1, rfl, h.2⟩

theorem agree_delete (hS : S.ServesTable table refuses) {ids : List Int}
    (hrest : ∀ x ∈ rest, x.group? ≠ some .delete)
    (hready : Ready table refuses fault (statementFor .deleteEvents ids ++ rest) t w s)
    (hrows : t.Holds s.rows) :
    Agree table refuses fault rest
      (fun n m t' s' => n = m ∧ s'.table = s.table.remove ids ∧ t'.Holds s'.rows)
      (groupCall .delete ids S.deleteEvents w)
      (groupCall .delete ids MemoryStore.delete s) := by
  refine agree_groupCall (fun hnone => ⟨statementFor_eq_nil hnone, rfl, ?_, hrows⟩)
    (group?_statementFor fun _ => rfl) hrest hready hrows
    (hS.deleteEvents_ends hready.table hrows ids) fun {n t'} h => ?_
  · rw [List.isEmpty_iff.mp hnone]
    exact s.table.remove_nil.symm
  · refine ⟨_, _, rfl, rfl, ?_, rfl, h.2⟩
    have hlength := List.length_eq_length_filter_add (l := s.rows) fun r => r.id ∈ ids
    simp only [← decide_not] at hlength
    have hcount := h.1
    omega

theorem agree_insert (hS : S.ServesTable table refuses) {events : List Event}
    (hnew : ∀ e ∈ events, e.fingerprint ∉ s.rows.map (·.event.fingerprint))
    (hdistinct : events.Pairwise fun a b => a.fingerprint ≠ b.fingerprint)
    (hrest : ∀ x ∈ rest, x.group? ≠ some .insert)
    (hready : Ready table refuses fault (insertStatements events ++ rest) t w s)
    (hrows : t.Holds s.rows) :
    Agree table refuses fault rest
      (fun n m t' s' => n = m ∧ s'.table = s.table.append events ∧
        ∃ added : List StoredEvent, added.map (·.event) = events ∧ t'.Holds (s.rows ++ added))
      (groupCall .insert events S.insertEvents w)
      (groupCall .insert events MemoryStore.insert s) := by
  have hunique : (s.rows.map (·.event.fingerprint) ++ events.map Event.fingerprint).Nodup := by
    refine hrows.nodup_fingerprints.append ?_ fun f hf hmem => ?_
    · exact List.nodup_iff_pairwise_ne.mpr (List.pairwise_map.mpr hdistinct)
    · obtain ⟨e, he, rfl⟩ := List.mem_map.mp hmem
      exact hnew e he hf
  refine agree_groupCall (fun hnone => ⟨if_pos hnone, rfl, ?_, [], ?_, ?_⟩)
    group?_insertStatements hrest hready hrows
    (hS.insertEvents_ends hready.table hrows hunique) fun {n t'} h => ?_
  · rw [List.isEmpty_iff.mp hnone]
    exact s.table.append_nil.symm
  · rw [List.isEmpty_iff.mp hnone, List.map_nil]
  · rwa [List.append_nil]
  · refine ⟨events.length, s.append events, ?_, rfl, h.1, rfl, h.2⟩
    rw [MemoryStore.firstRepeated_eq_none_iff.mpr ⟨hnew, hdistinct⟩]

end Server.ServesTable

/-! ## Merges -/

/-- Give new ids to rows. -/
def StoredEvent.renumbered (renumber : Int → Int) (r : StoredEvent) : StoredEvent :=
  { r with id := renumber r.id }

/-- The same events under other ids. -/
theorem exists_renumbering : ∀ {xs ys : List StoredEvent},
    xs.map (·.event) = ys.map (·.event) → (xs.map (·.id)).Nodup →
      ∃ renumber : Int → Int, xs.map (StoredEvent.renumbered renumber) = ys ∧
        ∀ i ∉ xs.map (·.id), renumber i = i
  | [], ys, hevents, _ => ⟨id, (List.map_eq_nil_iff.mp hevents.symm).symm, fun _ _ => rfl⟩
  | x :: xs, [], hevents, _ => by cases hevents
  | x :: xs, y :: ys, hevents, hids => by
      obtain ⟨hevent, hevents⟩ : x.event = y.event ∧ xs.map (·.event) = ys.map (·.event) :=
        List.cons.inj hevents
      obtain ⟨hx, hids⟩ : x.id ∉ xs.map (·.id) ∧ (xs.map (·.id)).Nodup := List.nodup_cons.mp hids
      obtain ⟨renumber, hys, hkeep⟩ := exists_renumbering hevents hids
      refine ⟨fun i => if i = x.id then y.id else renumber i, ?_, fun i hi => ?_⟩
      · have hfirst : (⟨y.id, x.event⟩ : StoredEvent) = y := by rw [hevent]
        rw [List.map_cons, StoredEvent.renumbered, if_pos rfl, hfirst, ← hys]
        refine congrArg (y :: ·) (List.map_congr_left fun z hz => ?_)
        have hne : z.id ≠ x.id := fun hzx => hx (List.mem_map.mpr ⟨z, hz, hzx⟩)
        rw [StoredEvent.renumbered, if_neg hne, StoredEvent.renumbered]
      · rw [List.map_cons] at hi
        obtain ⟨hix, hi⟩ : i ≠ x.id ∧ i ∉ xs.map (·.id) := not_or.mp (mt List.mem_cons.mpr hi)
        exact (if_neg hix).trans (hkeep i hi)

/-- All that a merge of the events into the table would send. -/
def EventTable.statements (t : EventTable) (events : List Event) : List Statement :=
  Server.statementFor .selectEvents (events.map Event.fingerprint) ++ (t.plan events).statements

theorem EventTable.statements_nil (t : EventTable) : t.statements [] = [] := by
  have hselected : t.selected [] = [] := List.filter_eq_nil_iff.mpr fun r _ => by simp
  have hplan : t.plan [] = ⟨[], [], []⟩ := by
    rw [EventTable.plan, hselected]
    simp [planMerge, mergeRuns]
  rw [EventTable.statements, hplan]
  rfl

/-- A table of hashes that are fingerprints can be held in memory. -/
theorem RowTable.exists_store (t : RowTable) (hhashes : ∀ r ∈ t.rows, r.hash.length = 16) :
    ∃ s : MemoryStore, t.Holds s.rows := by
  have hrange : t.rows ∈ Set.range (List.map StoredEvent.row) := by
    rw [Set.range_list_map]
    intro r hr
    obtain ⟨f, hf⟩ := Fingerprint.exists_bytes_eq (hhashes r hr)
    exact ⟨⟨r.id, ⟨f, r.visit, r.timestamp, r.moving⟩⟩, by rw [StoredEvent.row, hf]⟩
  obtain ⟨stored, hstored⟩ := hrange
  have hholds : t.Holds (stored.mergeSort fun a b => a.id ≤ b.id) := by
    refine RowTable.Holds.perm (List.Perm.of_eq hstored.symm) ?_
    exact (List.mergeSort_perm stored _).symm
  refine ⟨⟨stored.mergeSort fun a b => a.id ≤ b.id, t.lastId, none, ?_, fun r hr => ?_⟩, hholds⟩
  · have htotal (a b : StoredEvent) : (decide (a.id ≤ b.id) || decide (b.id ≤ a.id)) = true := by
      simp only [Bool.or_eq_true, decide_eq_true_eq]
      omega
    have htrans (a b c : StoredEvent) (hab : decide (a.id ≤ b.id) = true)
        (hbc : decide (b.id ≤ c.id) = true) : decide (a.id ≤ c.id) = true :=
      decide_eq_true (Int.le_trans (of_decide_eq_true hab) (of_decide_eq_true hbc))
    have hsorted := List.pairwise_mergeSort htrans htotal stored
    have hdistinct := List.pairwise_map.mp (List.nodup_iff_pairwise_ne.mp hholds.nodup_ids)
    refine (hsorted.and hdistinct).imp fun {a b} h => ?_
    exact lt_of_le_of_ne (of_decide_eq_true h.1) h.2
  · exact RowTable.id_le_foldr (hholds.symm.mem_iff.mp (List.mem_map_of_mem hr))

/-- How a merge ends on a server and in memory. Either nothing is refused, the reports are equal,
and the rows are the same but for the ids of those that were not there before. Or a statement is
refused, both name its group, and the rows are the same. -/
inductive MergesAgree (table : ω → TableState) (fault : Option StatementGroup)
    (before : MemoryStore) : Except Fault MergeReport × ω → Except Fault MergeReport × MemoryStore →
      Prop where
  | merged {report : MergeReport} {w : ω} {s : MemoryStore} (renumber : Int → Int)
    (hnone : fault = none) (hclosed : (table w).pending = none)
    (hold : ∀ r ∈ before.rows, renumber r.id = r.id)
    (hrows : (table w).committed.Holds (s.rows.map (StoredEvent.renumbered renumber))) :
    MergesAgree table fault before (.ok report, w) (.ok report, s)
  | failed {group : StatementGroup} {cause cause' : Cause} {w : ω} {s : MemoryStore}
    (hgroup : fault = some group) (hrows : (table w).committed.Holds s.rows) :
    MergesAgree table fault before (.error (.merge group cause), w)
      (.error (.merge group cause'), s)

namespace Server.ServesTable

variable {S : Server ω} {table : ω → TableState} {refuses : Statement → Bool}

theorem agree_apply (hS : S.ServesTable table refuses) {fault : Option StatementGroup}
    {events : List Event} {t : RowTable} {w : ω} {s : MemoryStore}
    (hready : Ready table refuses fault (s.table.plan events).statements t w s)
    (hrows : t.Holds s.rows) :
    Agree table refuses fault []
      (fun report report' t' s' => report = report' ∧ ∃ renumber : Int → Int,
        (∀ r ∈ s.rows, renumber r.id = r.id) ∧
          t'.Holds (s'.rows.map (StoredEvent.renumbered renumber)))
      (((s.table.plan events).apply S.eventStore).run.effect w)
      (((s.table.plan events).apply MemoryStore.store).run.effect s) := by
  rw [effect_apply, effect_apply]
  have hids : ((s.table.plan events).updates.map (·.id)).Nodup :=
    nodup_updates (s.table.nodup_ids.sublist (List.filter_sublist.map _))
  rw [MergePlan.statements] at hready
  refine (hS.agree_update hids (List.forall_mem_append.mpr ⟨?_, ?_⟩) hready hrows).following
    fun {n m t₁ w₁ s₁} hready₁ h₁ => ?_
  · exact group?_ne (group?_statementFor fun _ => rfl) StatementGroup.noConfusion
  · exact group?_ne group?_insertStatements StatementGroup.noConfusion
  obtain ⟨rfl, htable₁, hrows₁⟩ := h₁
  refine (hS.agree_delete ?_ hready₁ hrows₁).following fun {k l t₂ w₂ s₂} hready₂ h₂ => ?_
  · exact group?_ne group?_insertStatements StatementGroup.noConfusion
  obtain ⟨rfl, htable₂, hrows₂⟩ := h₂
  have htrimmed : s₂.table = s.table.trimmed events := by
    rw [htable₂, htable₁]
    rfl
  have hnew : ∀ e ∈ (s.table.plan events).inserts,
      e.fingerprint ∉ s₂.table.rows.map (·.event.fingerprint) :=
    htrimmed ▸ EventTable.inserts_new
  rw [← List.append_nil (insertStatements _)] at hready₂
  refine (hS.agree_insert hnew EventTable.inserts_distinct ?_ hready₂ hrows₂).following
    fun {i j t₃ w₃ s₃} hready₃ h₃ => ?_
  · exact fun x hx => absurd hx List.not_mem_nil
  obtain ⟨rfl, htable₃, added, hadded, hrows₃⟩ := h₃
  have hevents : (MemoryStore.numbered s₂.lastId (s.table.plan events).inserts).map (·.event) =
      added.map (·.event) := (EventTable.map_event_numbered _ _).trans hadded.symm
  obtain ⟨renumber, hrenumber, hkeep⟩ :=
    exists_renumbering hevents (EventTable.nodup_ids_numbered _ _)
  -- The ids of new rows are beyond those of all rows there were.
  have hold : ∀ r : StoredEvent, r.id ≤ s₂.lastId → renumber r.id = r.id := fun r hr =>
    hkeep r.id fun hmem => by
      obtain ⟨x, hx, hxr⟩ := List.mem_map.mp hmem
      have hlt := (MemoryStore.id_of_mem_numbered hx).1
      have hxr : x.id = r.id := hxr
      omega
  have hlast : s₂.lastId = s.lastId := congrArg EventTable.lastId htrimmed
  refine .done hready₃ ⟨rfl, renumber, fun r hr => hold r (hlast ▸ s.id_le_lastId r hr), ?_⟩
  have hrows : s₃.rows = s₂.rows ++
      MemoryStore.numbered s₂.lastId (s.table.plan events).inserts :=
    congrArg EventTable.rows htable₃
  have hsame : s₂.rows.map (StoredEvent.renumbered renumber) = s₂.rows := by
    refine (List.map_congr_left fun r hr => ?_).trans (List.map_id _)
    rw [StoredEvent.renumbered, hold r (s₂.id_le_lastId r hr)]
    rfl
  rwa [hrows, List.map_append, hsame, hrenumber]

theorem agree_merge (hS : S.ServesTable table refuses) {fault : Option StatementGroup}
    {events : List Event} {t : RowTable} {w : ω} {s : MemoryStore}
    (hready : Ready table refuses fault (s.table.statements events) t w s)
    (hrows : t.Holds s.rows) :
    Agree table refuses fault []
      (fun report report' t' s' => report = report' ∧ ∃ renumber : Int → Int,
        (∀ r ∈ s.rows, renumber r.id = r.id) ∧
          t'.Holds (s'.rows.map (StoredEvent.renumbered renumber)))
      ((mergeEvents S.eventStore events).run.effect w)
      ((mergeEvents MemoryStore.store events).run.effect s) := by
  rw [effect_mergeEvents, effect_mergeEvents]
  by_cases hempty : events.isEmpty
  · rw [if_pos hempty, if_pos hempty]
    rw [List.isEmpty_iff.mp hempty, EventTable.statements_nil] at hready
    refine .done hready ⟨rfl, id, fun _ _ => rfl, ?_⟩
    rwa [show StoredEvent.renumbered id = id from rfl, List.map_id]
  rw [if_neg hempty, if_neg hempty]
  refine (hS.agree_select group?_statements_ne hready hrows).following
    fun {found selected t₁ w₁ s₁} hready₁ h₁ => ?_
  obtain ⟨hperm, rfl, htable₁, hrows₁⟩ := h₁
  have hunique : ((s.table.selected events).map (·.event.fingerprint)).Nodup :=
    hrows.nodup_fingerprints.sublist (List.filter_sublist.map _)
  -- Both make the plan that belongs to the table, whatever the order of the reply.
  have hplan : planMerge (s.rows.filter (·.event.fingerprint ∈ events.map Event.fingerprint))
      events = s₁.table.plan events := by
    rw [htable₁]
    rfl
  have hplan' : planMerge found events = s₁.table.plan events :=
    (planMerge_perm hperm hunique).trans hplan
  rw [← htable₁] at hready₁
  rw [hplan, hplan']
  refine (hS.agree_apply hready₁ hrows₁).following fun {report report' t₂ w₂ s₂} hready₂ h₂ => ?_
  obtain ⟨rfl, renumber, hold, hrows₂⟩ := h₂
  have hsame : s₁.rows = s.rows := congrArg EventTable.rows htable₁
  rw [hperm.length_eq]
  exact .done hready₂ ⟨rfl, renumber, hsame ▸ hold, hrows₂⟩

/-- A merge on a server that keeps the event table does what a merge does in memory. For every
content of the table there is a store in memory with the same rows and ids, and for each such store
the two merges agree, where the call that fails in memory is that of the first refused statement. -/
theorem merge_agrees (hS : S.ServesTable table refuses) {w : ω} {t : RowTable}
    (hw : table w = ⟨t, none⟩) (hhashes : ∀ r ∈ t.rows, r.hash.length = 16)
    (events : List Event) :
    (∃ s : MemoryStore, t.Holds s.rows) ∧ ∀ s : MemoryStore, t.Holds s.rows →
      MergesAgree table (firstRefused refuses (s.table.statements events)) s
        ((mergeEvents S.eventStore events).run.effect w)
        (s.attempt events (firstRefused refuses (s.table.statements events))) := by
  refine ⟨t.exists_store hhashes, fun s hrows => ?_⟩
  generalize hfault : firstRefused refuses (s.table.statements events) = fault
  have hready : Ready table refuses fault (s.table.statements events) t w
      { s with failNext := fault } := ⟨hw, rfl, hfault.symm⟩
  have hagree := hS.agree_merge (s := { s with failNext := fault }) hready hrows
  rw [← MemoryStore.attempt] at hagree
  generalize (mergeEvents S.eventStore events).run.effect w = merged,
    s.attempt events fault = merged' at hagree ⊢
  cases hagree with
  | stopped hgroup hrows => exact .failed hgroup hrows
  | done hready hdoes =>
    obtain ⟨rfl, renumber, hold, hrows⟩ := hdoes
    refine .merged renumber hready.fault (by rw [hready.table]) hold ?_
    rwa [hready.table]

/-- A table with one row. -/
def sampleTable : RowTable where
  rows := [StoredEvent.row ⟨1, sampleEvent 7 10⟩]
  ids := List.nodup_singleton _
  hashes := List.nodup_singleton _

/-- The update is done and the commit of the insert is refused. -/
theorem merge_agrees_refused_commit :
    MergesAgree id (some .insert) (MemoryStore.ofEvents [sampleEvent 7 10])
      ((mergeEvents (tableServer (· = .commit)).eventStore
        [sampleEvent 7 40, sampleEvent 9 10]).run.effect ⟨sampleTable, none⟩)
      ((MemoryStore.ofEvents [sampleEvent 7 10]).attempt
        [sampleEvent 7 40, sampleEvent 9 10] (some .insert)) := by
  have hfault : firstRefused (· = .commit)
      ((MemoryStore.ofEvents [sampleEvent 7 10]).table.statements
        [sampleEvent 7 40, sampleEvent 9 10]) = some .insert := by
    cbv
  have hhashes : ∀ r ∈ sampleTable.rows, r.hash.length = 16 := by
    intro r hr
    rw [List.mem_singleton.mp hr]
    rfl
  have hagree := (merge_agrees (tableServer_serves (· = .commit)) rfl hhashes
    [sampleEvent 7 40, sampleEvent 9 10]).2
      (MemoryStore.ofEvents [sampleEvent 7 10]) (List.Perm.refl _)
  rwa [hfault] at hagree

end Server.ServesTable

end StopArrivals
