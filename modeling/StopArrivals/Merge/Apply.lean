import StopArrivals.Merge.Plan
import StopArrivals.Store

/-!
# Merging events into a store

A plan is applied as three groups of statements, updates, deletes and inserts, in this order. An
empty group sends nothing; the first group that fails ends the merge.
-/

namespace StopArrivals

variable {σ : Type}

/-- A step that may end in a fault. -/
abbrev Attempt (σ α : Type) : Type := ExceptT Fault (Step σ) α

/-- A call of the event store; its failure is a fault of the group. -/
def storeCall {α : Type} (group : StatementGroup) (call : Call σ α) : Attempt σ α := do
  match ← (Step.perform call : Step σ (Except Cause α)) with
  | .ok a => pure a
  | .error cause => throw (.merge group cause)

/-- Apply one group, unless it is empty. -/
def applyGroup {α : Type} (group : StatementGroup) (items : List α)
    (call : List α → Call σ Nat) : Attempt σ Nat :=
  if items.isEmpty then pure 0
  else do
    let rows ← storeCall group (call items)
    (Step.post (.appliedGroup group rows) : Step σ Unit)
    pure rows

/-- Apply a plan and report the rows changed. -/
def MergePlan.apply (S : EventStore σ) (plan : MergePlan) : Attempt σ MergeReport := do
  let updated ← applyGroup .update plan.updates S.update
  let deleted ← applyGroup .delete plan.deletes S.delete
  let inserted ← applyGroup .insert plan.inserts S.insert
  pure ⟨0, 0, updated, deleted, inserted⟩

/-- Merge events into the store. Without events the store is not even asked. -/
def mergeEvents (S : EventStore σ) (events : List Event) : Attempt σ MergeReport :=
  if events.isEmpty then pure .none
  else do
    let stored ← storeCall .select (S.select (events.map Event.fingerprint))
    let plan := planMerge stored events
    (Step.post (.plannedMerge events.length stored.length plan.updates.length
      plan.deletes.length plan.inserts.length) : Step σ Unit)
    let report ← plan.apply S
    pure { report with candidates := events.length, persisted := stored.length }

end StopArrivals
