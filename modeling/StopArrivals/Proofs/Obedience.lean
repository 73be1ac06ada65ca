import StopArrivals.Proofs.Effects

/-!
# Relations that calls obey

Take a relation between states that holds of a state and itself and carries over from step to step.
If it holds between the states before and after every call of a collaborator, it holds between the
states before and after all that is made of such calls: a plan that is applied, a merge, the work
on a partition, a cycle. So what a cycle leaves alone is proved call by call, whether the calls
succeed or fail.
-/

namespace StopArrivals

variable {σ ω α β ε : Type} {R : σ → σ → Prop}

/-! ## Event stores -/

theorem state_mergeCall (group : StatementGroup) (call : Call σ α) (s : σ) :
    (mergeCall group call s).2 = (call s).2 := by
  unfold mergeCall
  rcases call s with ⟨_ | a, s₁⟩ <;> rfl

structure EventStore.Obeys (S : EventStore σ) (R : σ → σ → Prop) : Prop where
  refl : ∀ s, R s s
  trans : ∀ {s s₁ s₂}, R s s₁ → R s₁ s₂ → R s s₂
  select : ∀ fingerprints s, R s (S.select fingerprints s).2
  update : ∀ updates s, R s (S.update updates s).2
  delete : ∀ ids s, R s (S.delete ids s).2
  insert : ∀ events s, R s (S.insert events s).2

namespace EventStore.Obeys

variable {S : EventStore σ}

theorem following (h : S.Obeys R) {s : σ} {x : Except ε α × σ} {f : α → σ → Except ε β × σ}
    (hx : R s x.2) (hf : ∀ a s₁, R s₁ (f a s₁).2) : R s (following x f).2 := by
  obtain ⟨_ | a, s₁⟩ := x
  · exact hx
  · exact h.trans hx (hf a s₁)

theorem groupCall (h : S.Obeys R) {group : StatementGroup} {items : List α}
    {call : List α → Call σ Nat} (hcall : ∀ items s, R s (call items s).2) (s : σ) :
    R s (groupCall group items call s).2 := by
  unfold StopArrivals.groupCall
  split
  · exact h.refl s
  · rw [state_mergeCall]
    exact hcall items s

theorem apply (h : S.Obeys R) (plan : MergePlan) (s : σ) :
    R s ((plan.apply S).run.effect s).2 := by
  rw [effect_apply]
  refine h.following (h.groupCall h.update s) fun updated s₁ => ?_
  refine h.following (h.groupCall h.delete s₁) fun deleted s₂ => ?_
  exact h.following (h.groupCall h.insert s₂) fun inserted s₃ => h.refl s₃

theorem merge (h : S.Obeys R) (events : List Event) (s : σ) :
    R s ((mergeEvents S events).run.effect s).2 := by
  rw [effect_mergeEvents]
  split
  · exact h.refl s
  · refine h.following ?_ fun stored s₁ => ?_
    · rw [state_mergeCall]
      exact h.select _ s
    · exact h.following (h.apply _ s₁) fun report s₂ => h.refl s₂

end EventStore.Obeys

/-- What is not part of a component stays as it is when a store works on that component. -/
theorem EventStore.obeys_within {p : Part ω σ} {f : ω → α} (S : EventStore σ)
    (hf : ∀ s w, f (p.put s w) = f w) : (S.within p).Obeys fun w w' => f w' = f w where
  refl _ := rfl
  trans h₁ h₂ := h₂.trans h₁
  select _ w := hf _ w
  update _ w := hf _ w
  delete _ w := hf _ w
  insert _ w := hf _ w

/-! ## Cycles -/

structure Collaborators.Obeys (c : Collaborators ω) (R : ω → ω → Prop) : Prop where
  store : c.store.Obeys R
  list : ∀ tag w, R w (c.ledger.list tag w).2
  load : ∀ p w, R w (c.loadOf p w).2
  mark : ∀ ids w, R w (c.ledger.mark ids w).2

namespace Collaborators

variable {c : Collaborators ω} {Q : ω → ω → Prop} (horizon : Int)

/-- What follows the load of a partition needs no more than the store and the marking to obey. -/
theorem obeys_after_load (hstore : c.store.Obeys Q) (hmark : ∀ ids w, Q w (c.ledger.mark ids w).2)
    (p : Partition) (w : ω) :
    Q (c.loadOf p w).2 ((c.processPartition horizon p).effect w).2 := by
  have hmerge : Q (c.loadOf p w).2 ((c.loadAndMerge horizon p).run.effect w).2 := by
    rw [effect_loadAndMerge]
    exact hstore.following (hstore.refl _) fun events w₁ => hstore.merge events w₁
  rw [effect_processPartition]
  generalize (c.loadAndMerge horizon p).run.effect w = merged at hmerge ⊢
  obtain ⟨_ | report, w₁⟩ := merged
  · exact hmerge
  · have hmarked := hmark p.ids w₁
    dsimp only
    generalize c.ledger.mark p.ids w₁ = marked at hmarked ⊢
    obtain ⟨_ | n, w₂⟩ := marked
    · exact hstore.trans hmerge hmarked
    · exact hstore.trans hmerge hmarked

namespace Obeys

theorem processPartition (h : c.Obeys Q) (p : Partition) (w : ω) :
    Q w ((c.processPartition horizon p).effect w).2 :=
  h.store.trans (h.load p w) (obeys_after_load horizon h.store h.mark p w)

theorem processAll (h : c.Obeys Q) (ps : List Partition) (w : ω) :
    Q w ((c.processAll horizon ps).effect w).2 := by
  induction ps generalizing w with
  | nil => exact h.store.refl w
  | cons p ps ih =>
    rw [effect_processAll_cons]
    split
    · exact h.store.refl w
    · exact h.store.trans (h.processPartition horizon p w) (ih _)

theorem runCycle (h : c.Obeys Q) (tag : String) (w : ω) :
    Q w ((c.runCycle horizon tag).effect w).2 := by
  rw [effect_runCycle]
  exact h.store.following (h.list tag w) fun objects w₁ => h.processAll horizon _ w₁

end Obeys

end Collaborators

end StopArrivals
