import StopArrivals.Cycle

/-!
# Effects of steps

What a step answers and the state that it leaves do not depend on the notices. Here the steps of a
cycle are taken down to calls of the collaborators, one equation for each of them, so that what is
proved about a cycle need not look at the monads.
-/

namespace StopArrivals

variable {σ ω α β ε : Type}

/-- Go on after a success; a failure is passed on. -/
def following (x : Except ε α × σ) (f : α → σ → Except ε β × σ) : Except ε β × σ :=
  match x with
  | (.ok a, s) => f a s
  | (.error e, s) => (.error e, s)

@[simp] theorem following_ok (a : α) (s : σ) (f : α → σ → Except ε β × σ) :
    following (.ok a, s) f = f a s := rfl

@[simp] theorem following_error (e : ε) (s : σ) (f : α → σ → Except ε β × σ) :
    following (.error e, s) f = (.error e, s) := rfl

namespace Step

def effect (x : Step σ α) (s : σ) : α × σ := (x.value s, x.state s)

@[simp] theorem effect_bind (x : Step σ α) (f : α → Step σ β) (s : σ) :
    (x >>= f).effect s = (f (x.effect s).1).effect (x.effect s).2 := rfl

@[simp] theorem effect_post (n : Notice) (s : σ) : (post n).effect s = ((), s) := rfl

@[simp] theorem effect_noting (x : α × List Notice) (s : σ) : (noting x).effect s = (x.1, s) := rfl

@[simp] theorem effect_ask (f : σ → α) (s : σ) : (ask f).effect s = (f s, s) := rfl

@[simp] theorem effect_perform (f : σ → α × σ) (s : σ) : (perform f).effect s = f s := rfl

end Step

@[simp] theorem Part.effect_step (p : Part ω σ) (x : Step σ α) (w : ω) :
    (p.step x).effect w = p.lift x.effect w := rfl

/-! ## Attempts -/

@[simp] theorem effect_run_pure (a : α) (s : σ) :
    (pure a : Attempt σ α).run.effect s = (.ok a, s) := rfl

@[simp] theorem effect_run_bind (x : Attempt σ α) (f : α → Attempt σ β) (s : σ) :
    (x >>= f).run.effect s = following (x.run.effect s) fun a s => (f a).run.effect s := by
  rw [ExceptT.run_bind, Step.effect_bind]
  rcases x.run.effect s with ⟨_ | a, s₁⟩ <;> rfl

@[simp] theorem effect_run_liftM (x : Step σ α) (s : σ) :
    (liftM x : Attempt σ α).run.effect s = (.ok (x.effect s).1, (x.effect s).2) := rfl

/-! ## Merges -/

/-- A call of the event store as part of a merge. -/
def mergeCall (group : StatementGroup) (call : Call σ α) (s : σ) : Except Fault α × σ :=
  match call s with
  | (.ok a, s) => (.ok a, s)
  | (.error cause, s) => (.error (.merge group cause), s)

theorem eq_of_mergeCall_eq_ok {group : StatementGroup} {call : Call σ α} {s s' : σ} {a : α}
    (h : mergeCall group call s = (.ok a, s')) : call s = (.ok a, s') := by
  rw [mergeCall] at h
  rcases hcall : call s with ⟨_ | _, _⟩ <;> rw [hcall] at h <;> cases h
  rfl

theorem effect_storeCall (group : StatementGroup) (call : Call σ α) (s : σ) :
    (storeCall group call).run.effect s = mergeCall group call s := by
  rw [storeCall, effect_run_bind, effect_run_liftM, Step.effect_perform, mergeCall]
  rcases call s with ⟨_ | _, _⟩ <;> rfl

/-- A group of statements as part of a merge; without items there is no call. -/
def groupCall (group : StatementGroup) (items : List α) (call : List α → Call σ Nat) (s : σ) :
    Except Fault Nat × σ :=
  if items.isEmpty then (.ok 0, s) else mergeCall group (call items) s

theorem effect_applyGroup (group : StatementGroup) (items : List α) (call : List α → Call σ Nat)
    (s : σ) : (applyGroup group items call).run.effect s = groupCall group items call s := by
  rw [applyGroup, groupCall]
  split
  · rfl
  · rw [effect_run_bind, effect_storeCall]
    rcases mergeCall group (call items) s with ⟨_ | _, _⟩ <;> rfl

theorem effect_apply (S : EventStore σ) (plan : MergePlan) (s : σ) :
    (plan.apply S).run.effect s =
      following (groupCall .update plan.updates S.update s) fun updated s =>
      following (groupCall .delete plan.deletes S.delete s) fun deleted s =>
      following (groupCall .insert plan.inserts S.insert s) fun inserted s =>
      (.ok ⟨0, 0, updated, deleted, inserted⟩, s) := by
  simp only [MergePlan.apply, effect_run_bind, effect_applyGroup, effect_run_pure]

theorem effect_mergeEvents (S : EventStore σ) (events : List Event) (s : σ) :
    (mergeEvents S events).run.effect s =
      if events.isEmpty then (.ok .none, s)
      else following (mergeCall .select (S.select (events.map Event.fingerprint)) s) fun stored s =>
        following (((planMerge stored events).apply S).run.effect s) fun report s =>
        (.ok { report with candidates := events.length, persisted := stored.length }, s) := by
  rw [mergeEvents]
  split
  · rfl
  · simp only [effect_run_bind, effect_storeCall, effect_run_pure]
    congr 1

/-! ## Partitions -/

/-- The events to be merged, from what was loaded for a partition. -/
def prepared (horizon : Int) (loaded : Except Cause (List Record)) : Except Fault (List Event) :=
  match loaded with
  | .error cause => .error (.load cause)
  | .ok rows => (extract horizon rows).1.map fun extraction => latestEvents extraction.candidates

namespace Collaborators

variable (c : Collaborators ω) (horizon : Int)

def loadOf (p : Partition) (w : ω) : Except Cause (List Record) × ω :=
  (c.batches.load p.paths tripUpdateColumns tripUpdateFilters).effect w

theorem effect_loadAndMerge (p : Partition) (w : ω) :
    (c.loadAndMerge horizon p).run.effect w =
      following (prepared horizon (c.loadOf p w).1, (c.loadOf p w).2) fun events w =>
      (mergeEvents c.store events).run.effect w := by
  rw [loadAndMerge, effect_run_bind, effect_run_liftM, following_ok, loadOf]
  rcases (c.batches.load p.paths tripUpdateColumns tripUpdateFilters).effect w with ⟨_ | rows, w₁⟩
  · rfl
  · simp only [prepared, effect_run_bind]
    show following ((extract horizon rows).1, w₁) _ = _
    rcases (extract horizon rows).1 with _ | extraction <;> rfl

theorem effect_processPartition (p : Partition) (w : ω) :
    (c.processPartition horizon p).effect w =
      match (c.loadAndMerge horizon p).run.effect w with
      | (.error fault, w) => (.failed p.key p.objects.length fault, w)
      | (.ok report, w) =>
        match c.ledger.mark p.ids w with
        | (.error cause, w) => (.unmarked p.key p.objects.length report (.ledger cause), w)
        | (.ok _, w) => (.processed p.key p.objects.length report, w) := by
  simp only [processPartition, Step.effect_bind, Step.effect_post, Step.effect_noting]
  rcases (c.loadAndMerge horizon p).run.effect w with ⟨_ | report, w₁⟩
  · rfl
  · simp only [Step.effect_bind, Step.effect_perform]
    rcases c.ledger.mark p.ids w₁ with ⟨_ | _, w₂⟩ <;> rfl

theorem effect_processAll_cons (p : Partition) (ps : List Partition) (w : ω) :
    (c.processAll horizon (p :: ps)).effect w =
      if c.shutdownRequested w then (⟨[], ps.length + 1⟩, w)
      else
        let first := (c.processPartition horizon p).effect w
        let rest := (c.processAll horizon ps).effect first.2
        ({ rest.1 with outcomes := first.1 :: rest.1.outcomes }, rest.2) := by
  rw [processAll, Step.effect_bind, Step.effect_ask]
  cases c.shutdownRequested w <;> rfl

theorem effect_runCycle (tag : String) (w : ω) :
    (c.runCycle horizon tag).effect w =
      following (c.ledger.list tag w) fun objects w =>
        let report := (c.processAll horizon (groupPartitions objects)).effect w
        (.ok report.1, report.2) := by
  rw [runCycle, Step.effect_bind, Step.effect_perform]
  rcases c.ledger.list tag w with ⟨_ | objects, w₁⟩ <;> rfl

end Collaborators

end StopArrivals
