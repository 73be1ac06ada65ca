import StopArrivals.Proofs.CallLog
import StopArrivals.Proofs.Obedience

/-!
# Cycles that a shutdown cuts short

A request to shut down is heard between two partitions, so all it does is to end a cycle early. Up to
that point nothing tells the cycle from one that hears of no request: not the outcomes, not the
state, and not the calls (`MemoryWorld.effect_processAll_cut`). How many partitions come before that
point is known when the cycle begins, because each of them loads once
(`MemoryWorld.partitionsBeforeShutdown`).
-/

namespace StopArrivals

variable {ω : Type}

/-! ## One partition after the other -/

namespace Collaborators

variable (c : Collaborators ω) (horizon : Int)

/-- Process partitions whether or not a shutdown is requested. -/
def processEach : List Partition → ω → List Outcome × ω
  | [], w => ([], w)
  | p :: ps, w =>
    let first := (c.processPartition horizon p).effect w
    let rest := processEach ps first.2
    (first.1 :: rest.1, rest.2)

theorem processEach_cons (p : Partition) (ps : List Partition) (w : ω) :
    c.processEach horizon (p :: ps) w =
      (((c.processPartition horizon p).effect w).1 ::
          (c.processEach horizon ps ((c.processPartition horizon p).effect w).2).1,
        (c.processEach horizon ps ((c.processPartition horizon p).effect w).2).2) := rfl

theorem processEach_append (ps qs : List Partition) (w : ω) :
    c.processEach horizon (ps ++ qs) w =
      ((c.processEach horizon ps w).1 ++ (c.processEach horizon qs (c.processEach horizon ps w).2).1,
        (c.processEach horizon qs (c.processEach horizon ps w).2).2) := by
  induction ps generalizing w with
  | nil => rfl
  | cons p ps ih =>
    rw [List.cons_append, processEach_cons, processEach_cons, ih]
    rfl

theorem Obeys.processEach {c : Collaborators ω} {R : ω → ω → Prop} (h : c.Obeys R)
    (ps : List Partition) (w : ω) : R w (c.processEach horizon ps w).2 := by
  induction ps generalizing w with
  | nil => exact h.store.refl w
  | cons p ps ih => exact h.store.trans (h.processPartition horizon p w) (ih _)

theorem Shows.processEach {υ : Type} {view : ω → υ} {c : Collaborators ω} {c' : Collaborators υ}
    (h : c.Shows view c') (ps : List Partition) (w : ω) :
    seen view (c.processEach horizon ps w) = c'.processEach horizon ps (view w) := by
  induction ps generalizing w with
  | nil => rfl
  | cons p ps ih =>
    rw [processEach_cons, processEach_cons, ← h.effect_processPartition]
    dsimp only [seen]
    rw [← ih]
    rfl

theorem partition_effect_processPartition (p : Partition) (w : ω) :
    ((c.processPartition horizon p).effect w).1.partition = p.key := by
  rw [effect_processPartition]
  rcases (c.loadAndMerge horizon p).run.effect w with ⟨fault | report, w₁⟩
  · rfl
  · dsimp only
    rcases c.ledger.mark p.ids w₁ with ⟨cause | n, w₂⟩ <;> rfl

/-- Each partition has its outcome. -/
theorem partitions_processEach (ps : List Partition) (w : ω) :
    (c.processEach horizon ps w).1.map Outcome.partition = ps.map Partition.key := by
  induction ps generalizing w with
  | nil => rfl
  | cons p ps ih =>
    rw [processEach_cons]
    simp only [List.map_cons, partition_effect_processPartition, ih]

theorem length_processEach (ps : List Partition) (w : ω) :
    (c.processEach horizon ps w).1.length = ps.length := by
  have hkeys := congrArg List.length (c.partitions_processEach horizon ps w)
  simpa only [List.length_map] using hkeys

/-- If no shutdown is requested before any of the partitions, they are all processed. -/
theorem effect_processAll_of_kept (Calm : ω → Prop)
    (hcalm : ∀ w, Calm w → c.shutdownRequested w = false)
    (hkept : ∀ p w, Calm w → Calm ((c.processPartition horizon p).effect w).2)
    (ps : List Partition) {w : ω} (hw : Calm w) :
    (c.processAll horizon ps).effect w =
      (⟨(c.processEach horizon ps w).1, 0⟩, (c.processEach horizon ps w).2) := by
  induction ps generalizing w with
  | nil => rfl
  | cons p ps ih =>
    rw [effect_processAll_cons, hcalm w hw, if_neg Bool.false_ne_true, processEach_cons]
    dsimp only
    rw [ih (hkept p w hw)]

/-- The same collaborators, but no request to shut down is ever heard. -/
def deaf (c : Collaborators ω) : Collaborators ω := { c with shutdownRequested := fun _ => false }

end Collaborators

/-! ## When a world requests a shutdown -/

namespace MemoryWorld

/-- No shutdown is requested, or will be. -/
def calm (m : MemoryWorld) : MemoryWorld := { m with shutdown := false, shutdownAtLoad := none }

/-- How many of some partitions are processed before a shutdown is heard of. -/
def partitionsBeforeShutdown (m : MemoryWorld) (count : Nat) : Nat :=
  if m.shutdown then 0
  else
    match m.shutdownAtLoad with
    | some (n + 1) => min (n + 1) count
    | _ => count

@[simp] theorem calm_calm (m : MemoryWorld) : m.calm.calm = m.calm := rfl

theorem partitionsBeforeShutdown_le (m : MemoryWorld) (count : Nat) :
    m.partitionsBeforeShutdown count ≤ count := by
  unfold partitionsBeforeShutdown
  split
  · exact Nat.zero_le count
  · split
    · exact Nat.min_le_right _ _
    · exact Nat.le_refl count

theorem calm_countLoad (m : MemoryWorld) : m.countLoad.calm = m.calm := by
  unfold countLoad
  split <;> rfl

theorem ledger_countLoad (m : MemoryWorld) : m.countLoad.ledger = m.ledger := by
  show m.countLoad.calm.ledger = m.calm.ledger
  rw [calm_countLoad]

theorem batches_countLoad (m : MemoryWorld) : m.countLoad.batches = m.batches := by
  show m.countLoad.calm.batches = m.calm.batches
  rw [calm_countLoad]

theorem store_countLoad (m : MemoryWorld) : m.countLoad.store = m.store := by
  show m.countLoad.calm.store = m.calm.store
  rw [calm_countLoad]

theorem loadOf_eq (p : Partition) (m : MemoryWorld) :
    collaborators.loadOf p m =
      (m.batches.load tripUpdateColumns tripUpdateFilters p.paths, m.countLoad) := by
  rw [← batches_countLoad]
  rfl

/-- Each load brings the shutdown one partition nearer. -/
theorem partitionsBeforeShutdown_countLoad {m : MemoryWorld} (h : m.shutdown = false)
    (count : Nat) :
    m.partitionsBeforeShutdown (count + 1) = m.countLoad.partitionsBeforeShutdown count + 1 := by
  unfold partitionsBeforeShutdown countLoad
  rw [h]
  rcases hload : m.shutdownAtLoad with _ | _ | _ | n
  · simp [h, hload]
  · simp [h, hload]
  · simp
  · simp only [Bool.false_eq_true, if_false]
    omega

/-- Nothing but a load has to do with shutdowns. -/
theorem shutdown_processPartition (horizon : Int) (p : Partition) (m : MemoryWorld) :
    ((collaborators.processPartition horizon p).effect m).2.shutdown = m.countLoad.shutdown ∧
      ((collaborators.processPartition horizon p).effect m).2.shutdownAtLoad =
        m.countLoad.shutdownAtLoad := by
  have hstore : collaborators.store.Obeys fun m m' =>
      (m'.shutdown, m'.shutdownAtLoad) = (m.shutdown, m.shutdownAtLoad) :=
    MemoryStore.store.obeys_within fun _ _ => rfl
  have hafter := Collaborators.obeys_after_load horizon hstore (fun _ _ => rfl) p m
  rw [loadOf_eq] at hafter
  exact Prod.mk.inj hafter

theorem partitionsBeforeShutdown_processPartition (horizon : Int) (p : Partition)
    (m : MemoryWorld) (count : Nat) :
    ((collaborators.processPartition horizon p).effect m).2.partitionsBeforeShutdown count =
      m.countLoad.partitionsBeforeShutdown count := by
  obtain ⟨hshutdown, hload⟩ := shutdown_processPartition horizon p m
  unfold partitionsBeforeShutdown
  rw [hshutdown, hload]

theorem countLoad_of_calm {m : MemoryWorld} (h : m.calm = m) : m.countLoad = m := by
  rw [← h]
  rfl

theorem calm_eq_self {m : MemoryWorld} (hshutdown : m.shutdown = false)
    (hload : m.shutdownAtLoad = none) : m.calm = m := by
  unfold calm
  rw [← hshutdown, ← hload]

/-- A calm world stays calm. -/
theorem calm_processPartition (horizon : Int) (p : Partition) {m : MemoryWorld}
    (h : m.calm = m) : ((collaborators.processPartition horizon p).effect m).2.calm =
      ((collaborators.processPartition horizon p).effect m).2 := by
  obtain ⟨hshutdown, hload⟩ := shutdown_processPartition horizon p m
  rw [countLoad_of_calm h] at hshutdown hload
  exact calm_eq_self (hshutdown.trans (congrArg MemoryWorld.shutdown h.symm))
    (hload.trans (congrArg MemoryWorld.shutdownAtLoad h.symm))

theorem effect_processAll_of_calm (horizon : Int) (ps : List Partition) {m : MemoryWorld}
    (h : m.calm = m) : (collaborators.processAll horizon ps).effect m =
      (⟨(collaborators.processEach horizon ps m).1, 0⟩,
        (collaborators.processEach horizon ps m).2) :=
  collaborators.effect_processAll_of_kept horizon (fun m => m.calm = m)
    (fun _ h => congrArg MemoryWorld.shutdown h.symm)
    (fun p _ h => calm_processPartition horizon p h) ps h

/-! ## Cycles with and without a shutdown -/

/-- What is left of a world with a log when requests to shut down do not count. -/
def calmLogged (w : MemoryWorld × List CollaboratorCall) : MemoryWorld × List CollaboratorCall :=
  (w.1.calm, w.2)

theorem shows_calmLogged :
    collaborators.logged.deaf.Shows calmLogged collaborators.logged.deaf where
  store := ⟨fun _ _ => rfl, fun _ _ => rfl, fun _ _ => rfl, fun _ _ => rfl⟩
  load p w := by
    have hload : collaborators.logged.deaf.loadOf p w =
        ((collaborators.loadOf p w.1).1, (collaborators.loadOf p w.1).2,
          w.2 ++ [.load p.paths tripUpdateColumns tripUpdateFilters]) := rfl
    have hcalm : collaborators.logged.deaf.loadOf p (calmLogged w) =
        ((collaborators.loadOf p w.1.calm).1, (collaborators.loadOf p w.1.calm).2,
          w.2 ++ [.load p.paths tripUpdateColumns tripUpdateFilters]) := rfl
    rw [hload, hcalm, loadOf_eq, loadOf_eq]
    simp only [seen, calmLogged, calm_countLoad]
    rfl
  mark _ _ := rfl
  shutdown _ := rfl

theorem shutdownRequested_logged (w : MemoryWorld × List CollaboratorCall) :
    collaborators.logged.shutdownRequested w = w.1.shutdown := rfl

variable (horizon : Int)

/-- The world after a partition, whether or not a log is kept. -/
theorem fst_processPartition_logged (p : Partition) (w : MemoryWorld × List CollaboratorCall) :
    ((collaborators.logged.processPartition horizon p).effect w).2.1 =
      ((collaborators.processPartition horizon p).effect w.1).2 :=
  congrArg Prod.snd (collaborators.shows_logged.effect_processPartition horizon p w)

/-- With a shutdown, a prefix of the partitions is processed, as it is without. -/
theorem effect_processAll_cut (ps : List Partition) (w : MemoryWorld × List CollaboratorCall) :
    seen calmLogged ((collaborators.logged.processAll horizon ps).effect w) =
      (⟨(collaborators.logged.processEach horizon
          (ps.take (w.1.partitionsBeforeShutdown ps.length)) (calmLogged w)).1,
        ps.length - w.1.partitionsBeforeShutdown ps.length⟩,
      (collaborators.logged.processEach horizon
        (ps.take (w.1.partitionsBeforeShutdown ps.length)) (calmLogged w)).2) := by
  induction ps generalizing w with
  | nil =>
    simp only [List.take_nil, List.length_nil, Nat.zero_sub]
    rfl
  | cons p ps ih =>
    rw [Collaborators.effect_processAll_cons, shutdownRequested_logged]
    by_cases hshutdown : w.1.shutdown = true
    · have hnone : w.1.partitionsBeforeShutdown (p :: ps).length = 0 := if_pos hshutdown
      rw [if_pos hshutdown, hnone]
      rfl
    · have hcount : w.1.partitionsBeforeShutdown (p :: ps).length =
          ((collaborators.logged.processPartition horizon p).effect
            w).2.1.partitionsBeforeShutdown ps.length + 1 := by
        rw [List.length_cons, partitionsBeforeShutdown_countLoad (Bool.eq_false_iff.mpr hshutdown),
          fst_processPartition_logged, partitionsBeforeShutdown_processPartition]
      have hfirst : (collaborators.logged.processPartition horizon p).effect (calmLogged w) =
          seen calmLogged ((collaborators.logged.processPartition horizon p).effect w) :=
        (shows_calmLogged.effect_processPartition horizon p w).symm
      obtain ⟨hreport, hstate⟩ :=
        Prod.mk.inj (ih ((collaborators.logged.processPartition horizon p).effect w).2)
      rw [if_neg hshutdown, hcount, List.take_succ_cons, List.length_cons, Nat.add_sub_add_right,
        Collaborators.processEach_cons, hfirst]
      refine Prod.ext ?_ hstate
      dsimp only [seen]
      rw [hreport]

/-- A calm world is never cut short, whether or not a log is kept. -/
theorem effect_processAll_logged_of_calm (ps : List Partition)
    {w : MemoryWorld × List CollaboratorCall} (h : w.1.calm = w.1) :
    (collaborators.logged.processAll horizon ps).effect w =
      (⟨(collaborators.logged.processEach horizon ps w).1, 0⟩,
        (collaborators.logged.processEach horizon ps w).2) := by
  refine collaborators.logged.effect_processAll_of_kept horizon (fun w => w.1.calm = w.1)
    (fun w h => ?_) (fun p w h => ?_) ps h
  · rw [shutdownRequested_logged]
    exact congrArg MemoryWorld.shutdown h.symm
  · rw [fst_processPartition_logged]
    exact calm_processPartition horizon p h

end MemoryWorld

end StopArrivals
