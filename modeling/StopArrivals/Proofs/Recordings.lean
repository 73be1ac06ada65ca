import StopArrivals.Proofs.Accounting

/-!
# What the totals are made of

Cycles, errors and the clearing of errors are recorded in any order. The counters take from each
recording what it brings, whatever came before it, so they are sums over all recordings
(`AddsUp.recordAll`) and wrap at 64 bits. The error is that of the last recording and of no other
(`lastError_iff`): if it is a cycle, that of its last outcome that has one. So the totals are
exactly what was recorded (`recorded_exactly`).
-/

namespace StopArrivals

inductive Recording where
  | cycle (report : CycleReport)
  | error (message : String)
  | cleared

namespace Recording

def isCycle : Recording → Bool
  | cycle _ => true
  | error _ | cleared => false

/-- The outcomes that a recording brings. -/
def outcomes : Recording → List Outcome
  | cycle report => report.outcomes
  | error _ | cleared => []

end Recording

namespace Totals

def record (t : Totals) : Recording → Totals
  | .cycle report => t.recordCycle report
  | .error message => t.recordError message
  | .cleared => t.clearError

/-- The totals after some recordings, from the start. -/
def recordAll (recordings : List Recording) : Totals := recordings.foldl record zero

theorem recordAll_append (past : List Recording) (r : Recording) :
    recordAll (past ++ [r]) = (recordAll past).record r := by
  rw [recordAll, List.foldl_append]
  rfl

/-! ## Counters -/

/-- A counter adds up an amount that each recording brings. -/
structure AddsUp (count : Totals → UInt64) (amount : List Recording → Nat) : Prop where
  start : count zero = 0
  none : amount [] = 0
  append : ∀ past r, amount (past ++ [r]) = amount past + amount [r]
  record : ∀ t r, count (t.record r) = count t + UInt64.ofNat (amount [r])

theorem AddsUp.recordAll {count : Totals → UInt64} {amount : List Recording → Nat}
    (h : AddsUp count amount) (recordings : List Recording) :
    (count (Totals.recordAll recordings)).toNat = amount recordings % 2 ^ 64 := by
  have hcount : count (Totals.recordAll recordings) = UInt64.ofNat (amount recordings) := by
    induction recordings using List.reverseRecOn with
    | nil => exact h.start.trans (congrArg UInt64.ofNat h.none.symm)
    | append_singleton past r ih =>
      rw [recordAll_append, h.record, ih, h.append, UInt64.ofNat_add]
  rw [hcount]
  exact UInt64.toNat_ofNat'

/-- What the outcomes bring is brought by the cycles that have them. -/
theorem Gathers.addsUp {count : Totals → UInt64} {amount : List Outcome → Nat}
    (h : Gathers count amount) (hstart : count zero = 0) :
    AddsUp count fun recordings => amount (recordings.flatMap Recording.outcomes) where
  start := hstart
  none := h.none
  append past r := by rw [List.flatMap_append, h.append]
  record t r := by
    rw [List.flatMap_singleton]
    cases r with
    | cycle report => exact h.recordCycle t report
    | error message =>
      rw [Recording.outcomes, h.none]
      exact (h.recordError t message).trans (UInt64.add_zero _).symm
    | cleared =>
      rw [Recording.outcomes, h.none]
      exact (h.other t ..).trans (UInt64.add_zero _).symm

theorem gathers_processed :
    Gathers partitionsProcessed fun outcomes => outcomes.countP Outcome.isProcessed where
  none := rfl
  append _ _ := List.countP_append
  outcome t o := by cases o <;> simp [addOutcome, Outcome.report?, Outcome.isProcessed, addMerge]
  other _ _ _ := rfl

theorem gathers_failed :
    Gathers partitionsFailed fun outcomes => outcomes.countP fun o => !o.isProcessed where
  none := rfl
  append _ _ := List.countP_append
  outcome t o := by cases o <;> simp [addOutcome, Outcome.report?, Outcome.isProcessed, addMerge]
  other _ _ _ := rfl

theorem cycles_outcomes (os : List Outcome) (t : Totals) :
    (os.foldl addOutcome t).cycles = t.cycles := by
  induction os generalizing t with
  | nil => rfl
  | cons o os ih =>
    rw [List.foldl_cons, ih]
    cases o <;> rfl

theorem addsUp_cycles : AddsUp cycles fun recordings => recordings.countP Recording.isCycle where
  start := rfl
  none := rfl
  append _ _ := List.countP_append
  record t r := by
    cases r with
    | cycle report => exact cycles_outcomes report.outcomes _
    | error | cleared => exact (UInt64.add_zero _).symm

/-! ## The last error -/

/-- The error of a cycle with some outcomes: that of the last one that has an error. -/
inductive CycleError : List Outcome → Option String → Prop
  | none {outcomes : List Outcome} (h : ∀ o ∈ outcomes, o.isProcessed = true) :
    CycleError outcomes none
  | last (before : List Outcome) {o : Outcome} {fault : Fault} {after : List Outcome}
    (hfault : o.fault? = some fault) (hafter : ∀ o ∈ after, o.isProcessed = true) :
    CycleError (before ++ o :: after) (some fault.message)

/-- The error that the last recording leaves, whatever was recorded before it. -/
inductive LastError : List Recording → Option String → Prop
  | nothing : LastError [] none
  | cycle (past : List Recording) {report : CycleReport} {error : Option String}
    (h : CycleError report.outcomes error) : LastError (past ++ [.cycle report]) error
  | error (past : List Recording) (message : String) :
    LastError (past ++ [.error message]) (some message)
  | cleared (past : List Recording) : LastError (past ++ [.cleared]) none

theorem fault?_eq_none_iff {o : Outcome} : o.fault? = none ↔ o.isProcessed = true := by
  cases o <;> simp [Outcome.fault?, Outcome.isProcessed]

theorem exists_cycleError (outcomes : List Outcome) : ∃ error, CycleError outcomes error := by
  induction outcomes using List.reverseRecOn with
  | nil => exact ⟨none, .none fun _ h => by cases h⟩
  | append_singleton before o ih =>
    cases hfault : o.fault? with
    | some fault => exact ⟨some fault.message, .last before hfault fun _ h => by cases h⟩
    | none =>
      have hlast : ∀ x ∈ [o], x.isProcessed = true := fun x hx =>
        List.mem_singleton.mp hx ▸ fault?_eq_none_iff.mp hfault
      obtain ⟨error, hnone | ⟨before, hfault, hafter⟩⟩ := ih
      · exact ⟨none, .none (List.forall_mem_append.mpr ⟨by assumption, hlast⟩)⟩
      · rw [List.append_assoc, List.cons_append]
        exact ⟨_, .last before hfault (List.forall_mem_append.mpr ⟨hafter, hlast⟩)⟩

theorem lastFault_eq_iff {outcomes : List Outcome} {error : Option String} :
    lastFault outcomes = error ↔ CycleError outcomes error := by
  have hnone {os : List Outcome} (h : ∀ o ∈ os, o.isProcessed = true) :
      os.filterMap Outcome.fault? = [] :=
    List.filterMap_eq_nil_iff.mpr fun o ho => fault?_eq_none_iff.mpr (h o ho)
  have hlast {error : Option String} (h : CycleError outcomes error) :
      lastFault outcomes = error := by
    cases h with
    | none h => rw [lastFault, hnone h]; rfl
    | last before hfault hafter =>
      rw [lastFault, List.filterMap_append, List.filterMap_cons_some hfault, hnone hafter,
        List.getLast?_concat]
      rfl
  constructor
  · rintro rfl
    obtain ⟨error, h⟩ := exists_cycleError outcomes
    rwa [hlast h]
  · exact hlast

theorem lastError_iff {recordings : List Recording} {error : Option String} :
    (recordAll recordings).lastError = error ↔ LastError recordings error := by
  constructor
  · rintro rfl
    rcases List.eq_nil_or_concat' recordings with rfl | ⟨past, r, rfl⟩
    · exact .nothing
    · rw [recordAll_append]
      cases r with
      | cycle report => exact .cycle past (lastFault_eq_iff.mp rfl)
      | error message => exact .error past message
      | cleared => exact .cleared past
  · rintro (_ | ⟨past, h⟩ | ⟨past, message⟩ | past)
    · rfl
    · rw [recordAll_append]
      exact lastFault_eq_iff.mpr h
    · rw [recordAll_append]
      rfl
    · rw [recordAll_append]
      rfl

/-! ## All totals -/

/-- What some recordings come to. -/
structure ComesTo (recordings : List Recording) (t : Totals) : Prop where
  cycles : t.cycles.toNat = recordings.countP Recording.isCycle % 2 ^ 64
  partitionsProcessed : t.partitionsProcessed.toNat =
    (recordings.flatMap Recording.outcomes).countP Outcome.isProcessed % 2 ^ 64
  partitionsFailed : t.partitionsFailed.toNat =
    ((recordings.flatMap Recording.outcomes).countP fun o => !o.isProcessed) % 2 ^ 64
  eventsUpdated : t.eventsUpdated.toNat =
    reported MergeReport.updated (recordings.flatMap Recording.outcomes) % 2 ^ 64
  eventsDeleted : t.eventsDeleted.toNat =
    reported MergeReport.deleted (recordings.flatMap Recording.outcomes) % 2 ^ 64
  eventsInserted : t.eventsInserted.toNat =
    reported MergeReport.inserted (recordings.flatMap Recording.outcomes) % 2 ^ 64
  lastError : LastError recordings t.lastError

theorem comesTo_recordAll (recordings : List Recording) :
    ComesTo recordings (recordAll recordings) where
  cycles := addsUp_cycles.recordAll recordings
  partitionsProcessed := (gathers_processed.addsUp rfl).recordAll recordings
  partitionsFailed := (gathers_failed.addsUp rfl).recordAll recordings
  eventsUpdated := (tallies_updated.gathers.addsUp rfl).recordAll recordings
  eventsDeleted := (tallies_deleted.gathers.addsUp rfl).recordAll recordings
  eventsInserted := (tallies_inserted.gathers.addsUp rfl).recordAll recordings
  lastError := lastError_iff.mp rfl

/-- Recordings come to one set of totals only. -/
theorem ComesTo.unique {recordings : List Recording} {t t' : Totals} (h : ComesTo recordings t)
    (h' : ComesTo recordings t') : t = t' := by
  have herror : t.lastError = t'.lastError :=
    (lastError_iff.mpr h.lastError).symm.trans (lastError_iff.mpr h'.lastError)
  have hcount {m n : UInt64} {k : Nat} (hm : m.toNat = k) (hn : n.toNat = k) : m = n :=
    UInt64.toNat_inj.mp (hm.trans hn.symm)
  cases t
  cases t'
  rw [mk.injEq]
  exact ⟨hcount h.cycles h'.cycles, hcount h.partitionsProcessed h'.partitionsProcessed,
    hcount h.partitionsFailed h'.partitionsFailed, hcount h.eventsUpdated h'.eventsUpdated,
    hcount h.eventsDeleted h'.eventsDeleted, hcount h.eventsInserted h'.eventsInserted, herror⟩

/-- The totals are exactly what was recorded: numbers of cycles and of outcomes, sums of what merges
report, and the error of the last recording. -/
theorem recorded_exactly (recordings : List Recording) (t : Totals) :
    recordAll recordings = t ↔ ComesTo recordings t := by
  constructor
  · rintro rfl
    exact comesTo_recordAll recordings
  · exact (comesTo_recordAll recordings).unique

-- A cycle without an error clears what was recorded before it.
example : (recordAll [.error "gone", .cycle ⟨[.processed "a" 1 .none], 0⟩]).lastError = none := rfl

end Totals

end StopArrivals
