import StopArrivals.Latest
import StopArrivals.Proofs.Lineage
import StopArrivals.Proofs.Retry
import StopArrivals.Proofs.Views

/-!
# What merges retain

A watched store writes down the table that each of its calls leaves, so that the tables between two
groups of statements can be spoken of. `Retains` says that nothing is lost or set back from one
table to another: a fingerprint with rows keeps one, its leading row stays and goes on leading, and
neither that row nor the fingerprint gets an earlier timestamp. It holds between any two tables of
a history of merges, the earlier one given first, wherever the merges are stopped
(`MemoryStore.retains_throughout`).
-/

namespace StopArrivals

variable {σ α β : Type}

/-! ## From one table to another -/

namespace EventTable

structure Retains (t t' : EventTable) : Prop where
  fingerprints : ∀ f ∈ t.rows.map (·.event.fingerprint), f ∈ t'.rows.map (·.event.fingerprint)
  leading : ∀ r ∈ t.rows, Leads t.rows r → ∃ x ∈ t'.rows, Redated r x ∧ Leads t'.rows x ∧
    r.event.timestamp ≤ x.event.timestamp
  latest : ∀ f time, latest? f t.rows [] = some time →
    ∃ time', latest? f t'.rows [] = some time' ∧ time ≤ time'

namespace Retains

variable {t t₁ t₂ : EventTable}

theorem refl (t : EventTable) : t.Retains t where
  fingerprints _ hf := hf
  leading r hr hlead := ⟨r, hr, rfl, hlead, Int.le_refl _⟩
  latest _ time h := ⟨time, h, Int.le_refl _⟩

theorem trans (h₁ : t.Retains t₁) (h₂ : t₁.Retains t₂) : t.Retains t₂ where
  fingerprints f hf := h₂.fingerprints f (h₁.fingerprints f hf)
  leading r hr hlead := by
    obtain ⟨x, hx, hrx, hlead₁, hle₁⟩ := h₁.leading r hr hlead
    obtain ⟨y, hy, hxy, hlead₂, hle₂⟩ := h₂.leading x hx hlead₁
    exact ⟨y, hy, hrx.trans hxy, hlead₂, Int.le_trans hle₁ hle₂⟩
  latest f time h := by
    obtain ⟨time₁, htime₁, hle₁⟩ := h₁.latest f time h
    obtain ⟨time₂, htime₂, hle₂⟩ := h₂.latest f time₁ htime₁
    exact ⟨time₂, htime₂, Int.le_trans hle₁ hle₂⟩

end Retains

section

variable {t t' : EventTable} {events : List Event}

theorem mem_timestampsOf_rows {f : Fingerprint} {rows : List StoredEvent} {time : Int} :
    time ∈ timestampsOf f rows [] ↔
      ∃ r ∈ rows, r.event.fingerprint = f ∧ r.event.timestamp = time := by
  simp [mem_timestampsOf]

theorem Stage.retains (h : t.Stage events t') : t.Retains t' where
  fingerprints f hf := by
    obtain ⟨r, hr, rfl⟩ := List.mem_map.mp hf
    obtain ⟨x, hx, hxr, -⟩ := h.exists_later hr
    exact List.mem_map.mpr ⟨x, hx, hxr⟩
  leading r hr hlead := by
    have hlineage : Lineage (· ∈ events) t t' := (Lineage.refl _ t).stage h fun _ he => he
    rcases h.keeps_leading hr hlead with hmem | hmem
    · exact ⟨r, hmem, rfl, hlineage.leads hr hlead rfl, Int.le_refl _⟩
    · have hraise : Redated r (t.raise events r) := raise_eq t events r
      exact ⟨_, hmem, hraise, hlineage.leads hr hlead hraise, le_raise hr⟩
  latest f time htime := by
    obtain ⟨r, hr, hrf, rfl⟩ := mem_timestampsOf_rows.mp (latest?_eq_some_iff.mp htime).1
    obtain ⟨x, hx, hxr, hle⟩ := h.exists_later hr
    obtain ⟨time', htime'⟩ : ∃ time', latest? f t'.rows [] = some time' :=
      exists_latest (.inl ⟨x, hx, hxr.trans hrf⟩)
    refine ⟨time', htime', Int.le_trans hle ((latest?_eq_some_iff.mp htime').2 _ ?_)⟩
    exact mem_timestampsOf_rows.mpr ⟨x, hx, hxr.trans hrf, rfl⟩

/-! ## From one stage of a merge to the next -/

/-- The deletes are those of a merge that begins after the updates. -/
theorem stage_trimmed_of_raised : (t.raised events).Stage events (t.trimmed events) := by
  have hstage : (t.raised events).Stage events ((t.raised events).trimmed events) := .trimmed
  rwa [trimmed_raised] at hstage

/-- The inserts are those of a merge that begins after the deletes. -/
theorem stage_merged_of_trimmed : (t.trimmed events).Stage events (t.merged events) := by
  have hstage : (t.trimmed events).Stage events ((t.trimmed events).merged events) := .merged
  rwa [merged_trimmed] at hstage

end

end EventTable

/-! ## Watched stores -/

def watchedCall (table : σ → EventTable) (call : Call σ α) : Call (σ × List EventTable) α :=
  fun w => ((call w.1).1, (call w.1).2, w.2 ++ [table (call w.1).2])

/-- The store, and the tables that its calls have left, the last one last. -/
def EventStore.watched (table : σ → EventTable) (S : EventStore σ) :
    EventStore (σ × List EventTable) where
  select fingerprints := watchedCall table (S.select fingerprints)
  update updates := watchedCall table (S.update updates)
  delete ids := watchedCall table (S.delete ids)
  insert events := watchedCall table (S.insert events)

theorem EventStore.shows_watched (table : σ → EventTable) (S : EventStore σ) :
    (S.watched table).Shows Prod.fst S :=
  ⟨fun _ _ => rfl, fun _ _ => rfl, fun _ _ => rfl, fun _ _ => rfl⟩

/-- From the first table on, all tables that were written down retain those before them, and the
last one is the table now. -/
structure Unbroken (table : σ → EventTable) (t₀ : EventTable) (w : σ × List EventTable) :
    Prop where
  pairwise : (t₀ :: w.2).Pairwise EventTable.Retains
  last : (t₀ :: w.2).getLast? = some (table w.1)

namespace Unbroken

variable {table : σ → EventTable} {t₀ : EventTable} {w : σ × List EventTable}

theorem start (table : σ → EventTable) (s : σ) : Unbroken table (table s) (s, []) :=
  ⟨List.pairwise_singleton _ _, rfl⟩

theorem retains_now (h : Unbroken table t₀ w) : ∀ t ∈ t₀ :: w.2, t.Retains (table w.1) := by
  obtain ⟨init, hinit⟩ := List.getLast?_eq_some_iff.mp h.last
  have hpairwise := h.pairwise
  rw [hinit] at hpairwise ⊢
  intro t ht
  rcases List.mem_append.mp ht with ht | ht
  · exact (List.pairwise_append.mp hpairwise).2.2 t ht _ (List.mem_singleton_self _)
  · exact List.mem_singleton.mp ht ▸ .refl _

theorem append (h : Unbroken table t₀ w) {s : σ} (hretains : (table w.1).Retains (table s)) :
    Unbroken table t₀ (s, w.2 ++ [table s]) where
  pairwise := by
    rw [← List.cons_append]
    refine List.pairwise_append.mpr ⟨h.pairwise, List.pairwise_singleton _ _, fun t ht t' ht' => ?_⟩
    obtain rfl := List.mem_singleton.mp ht'
    exact (h.retains_now t ht).trans hretains
  last := by rw [← List.cons_append, List.getLast?_concat]

/-- The table is all that counts. -/
theorem unchanged (h : Unbroken table t₀ w) {s : σ} (htable : table s = table w.1) :
    Unbroken table t₀ (s, w.2) :=
  ⟨h.pairwise, h.last.trans (congrArg some htable.symm)⟩

end Unbroken

section

variable {table : σ → EventTable} {moves : Option StatementGroup → σ → σ → Prop}
  {known : σ × List EventTable → Prop} {t t' : EventTable} {w : σ × List EventTable}
  {events : List Event}

/-- What is known of a watched store is still known when one more table is written down, if that is
a stage of a merge of the events. -/
def Carries (table : σ → EventTable) (known : σ × List EventTable → Prop) (events : List Event) :
    Prop :=
  ∀ {w : σ × List EventTable} {s : σ}, known w → (table w.1).Stage events (table s) →
    known (s, w.2 ++ [table s])

/-- How watched calls of a merge end that are to leave the table `t`. -/
inductive WatchEnds (table : σ → EventTable) (known : σ × List EventTable → Prop)
    (t : EventTable) : Except Fault α × (σ × List EventTable) → Prop where
  | failed {fault : Fault} {w : σ × List EventTable} (hknown : known w) :
    WatchEnds table known t (.error fault, w)
  | done {a : α} {w : σ × List EventTable} (hknown : known w) (htable : table w.1 = t) :
    WatchEnds table known t (.ok a, w)

namespace WatchEnds

theorem known_after {result : Except Fault α × (σ × List EventTable)}
    (h : WatchEnds table known t result) : known result.2 := by
  cases h with
  | failed hknown | done hknown => exact hknown

theorem following {first : Except Fault α × (σ × List EventTable)}
    {next : α → σ × List EventTable → Except Fault β × (σ × List EventTable)}
    (h : WatchEnds table known t first)
    (h' : ∀ a w, known w → table w.1 = t → WatchEnds table known t' (next a w)) :
    WatchEnds table known t' (StopArrivals.following first next) := by
  cases h with
  | failed hknown => exact .failed hknown
  | done hknown htable => exact h' _ _ hknown htable

end WatchEnds

theorem watchEnds_mergeCall {group : StatementGroup} {call : Call σ α}
    {work : EventTable → EventTable} (hcarries : Carries table known events) (h : known w)
    (ht : table w.1 = t) (hends : GroupEnds table moves group work w.1 (mergeCall group call w.1))
    (hstage : t.Stage events (work t)) :
    WatchEnds table known (work t) (mergeCall group (watchedCall table call) w) := by
  subst ht
  rw [mergeCall] at hends ⊢
  rw [watchedCall]
  rcases hcall : call w.1 with ⟨cause | a, s⟩ <;> rw [hcall] at hends
  · rcases hends with ⟨htable, -⟩
    exact .failed (hcarries h (htable ▸ .untouched))
  · rcases hends with _ | ⟨htable, -⟩
    exact .done (hcarries h (htable ▸ hstage)) htable

theorem watchEnds_groupCall {group : StatementGroup} {items : List α}
    {call : List α → Call σ Nat} {work : List α → EventTable → EventTable}
    (hcarries : Carries table known events) (h : known w) (ht : table w.1 = t)
    (hnil : work [] t = t)
    (hends : GroupEnds table moves group (work items) w.1 (mergeCall group (call items) w.1))
    (hstage : t.Stage events (work items t)) :
    WatchEnds table known (work items t)
      (groupCall group items (fun items => watchedCall table (call items)) w) := by
  rw [groupCall]
  by_cases hitems : items.isEmpty
  · rw [if_pos hitems, List.isEmpty_iff.mp hitems, hnil]
    exact .done h ht
  · rw [if_neg hitems]
    exact watchEnds_mergeCall hcarries h ht hends hstage

variable {S : EventStore σ}

theorem EventStore.Keeps.watchEnds_apply (hS : S.Keeps table moves)
    (hcarries : Carries table known events) (h : known w) :
    WatchEnds table known ((table w.1).merged events)
      ((((table w.1).plan events).apply (S.watched table)).run.effect w) := by
  generalize ht : table w.1 = t
  rw [effect_apply]
  refine (watchEnds_groupCall hcarries h ht rfl (hS.update (t.plan events).updates w.1)
    EventTable.Stage.raised).following fun updated w₁ h₁ ht₁ => ?_
  refine (watchEnds_groupCall hcarries h₁ ht₁ (t.raised events).remove_nil
    (hS.delete (t.plan events).deletes w₁.1)
    EventTable.stage_trimmed_of_raised).following fun deleted w₂ h₂ ht₂ => ?_
  have htrimmed : table w₂.1 = t.trimmed events := ht₂
  have hnew : ∀ e ∈ (t.plan events).inserts,
      e.fingerprint ∉ (table w₂.1).rows.map (·.event.fingerprint) :=
    htrimmed ▸ EventTable.inserts_new
  refine (watchEnds_groupCall hcarries h₂ ht₂ (t.trimmed events).append_nil
    (hS.insert hnew EventTable.inserts_distinct)
    EventTable.stage_merged_of_trimmed).following fun inserted w₃ h₃ ht₃ => ?_
  exact .done h₃ ht₃

theorem EventStore.Keeps.watchEnds_merge (hS : S.Keeps table moves)
    (hcarries : Carries table known events) (h : known w) :
    WatchEnds table known ((table w.1).merged events)
      ((mergeEvents (S.watched table) events).run.effect w) := by
  rw [effect_mergeEvents]
  by_cases hempty : events.isEmpty
  · rw [if_pos hempty, List.isEmpty_iff.mp hempty, EventTable.merged_nil]
    exact .done h rfl
  rw [if_neg hempty]
  have hselect : WatchEnds table known (table w.1)
      (mergeCall .select ((S.watched table).select (events.map Event.fingerprint)) w) :=
    watchEnds_mergeCall hcarries h rfl (hS.select _ w.1) .untouched
  have hanswer : ∀ {rows w₁},
      mergeCall .select ((S.watched table).select (events.map Event.fingerprint)) w =
        (.ok rows, w₁) → rows = (table w.1).selected events := by
    intro rows w₁ heq
    have hcall := congrArg Prod.fst (eq_of_mergeCall_eq_ok heq)
    exact hS.rows_of_select (Prod.ext hcall rfl)
  generalize mergeCall .select ((S.watched table).select (events.map Event.fingerprint)) w =
    selected at hselect hanswer ⊢
  cases hselect with
  | failed hknown => exact .failed hknown
  | done hknown htable =>
    obtain rfl := hanswer rfl
    rw [following_ok, ← htable]
    exact (hS.watchEnds_apply hcarries hknown).following fun report w₂ h₂ ht₂ => .done h₂ ht₂

/-- What a merge writes down retains what there was. -/
theorem carries_unbroken (table : σ → EventTable) (t₀ : EventTable) (events : List Event) :
    Carries table (Unbroken table t₀) events := fun h hstage => h.append hstage.retains

end

/-! ## Histories of merges -/

/-- Events to be merged as they are, or candidates of which the latest are to be merged. -/
inductive Delivery where
  | plain (events : List Event)
  | observed (candidates : List Candidate)

def Delivery.events : Delivery → List Event
  | plain events => events
  | observed candidates => latestEvents candidates

namespace MemoryStore

/-- Attempts one after the other, each with the group of statements that fails if it is sent. -/
def deliver (deliveries : List (Delivery × Option StatementGroup)) (s : MemoryStore) :
    MemoryStore :=
  deliveries.foldl (fun s d => (attempt d.1.events d.2 s).2) s

def watchedAttempt (events : List Event) (fault : Option StatementGroup)
    (w : MemoryStore × List EventTable) : MemoryStore × List EventTable :=
  ((mergeEvents (store.watched table) events).run.effect ({ w.1 with failNext := fault }, w.2)).2

/-- The same attempts on a watched store. -/
def watchedDeliver (deliveries : List (Delivery × Option StatementGroup))
    (w : MemoryStore × List EventTable) : MemoryStore × List EventTable :=
  deliveries.foldl (fun w d => watchedAttempt d.1.events d.2 w) w

theorem watchedAttempt_fst (events : List Event) (fault : Option StatementGroup)
    (w : MemoryStore × List EventTable) :
    (watchedAttempt events fault w).1 = (attempt events fault w.1).2 :=
  congrArg Prod.snd ((store.shows_watched table).effect_mergeEvents events
    ({ w.1 with failNext := fault }, w.2))

theorem watchedDeliver_fst : ∀ (deliveries : List (Delivery × Option StatementGroup))
    (w : MemoryStore × List EventTable), (watchedDeliver deliveries w).1 = deliver deliveries w.1
  | [], _ => rfl
  | d :: ds, w => by
      rw [watchedDeliver, List.foldl_cons, ← watchedDeliver, watchedDeliver_fst ds,
        watchedAttempt_fst]
      rfl

theorem unbroken_watchedDeliver {t₀ : EventTable} :
    ∀ (deliveries : List (Delivery × Option StatementGroup)) {w : MemoryStore × List EventTable},
      Unbroken table t₀ w → Unbroken table t₀ (watchedDeliver deliveries w)
  | [], _, h => h
  | d :: ds, w, h => by
      have hset : Unbroken table t₀ ({ w.1 with failNext := d.2 }, w.2) := h.unchanged rfl
      have hends := keeps_table.watchEnds_merge (carries_unbroken table t₀ d.1.events) hset
      exact unbroken_watchedDeliver ds hends.known_after

/-- Watching changes nothing. Of the tables after all the groups of statements of all attempts, each
one retains the one at the start and all those before it. -/
theorem retains_throughout (deliveries : List (Delivery × Option StatementGroup))
    (s : MemoryStore) :
    (watchedDeliver deliveries (s, [])).1 = deliver deliveries s ∧
      (s.table :: (watchedDeliver deliveries (s, [])).2).getLast? =
        some (deliver deliveries s).table ∧
      (s.table :: (watchedDeliver deliveries (s, [])).2).Pairwise EventTable.Retains := by
  have hsame := watchedDeliver_fst deliveries (s, [])
  have hunbroken := unbroken_watchedDeliver deliveries (Unbroken.start table s)
  exact ⟨hsame, hsame ▸ hunbroken.last, hunbroken.pairwise⟩

end MemoryStore

end StopArrivals
