import StopArrivals.Proofs.Exchanges
import StopArrivals.Proofs.Grouping
import StopArrivals.World

/-!
# The transcript of a cycle

All that a cycle on a database sends, whatever the server answers, whatever the engine does and
whenever a shutdown is requested. First the objects are listed. Then come the partitions, one after
the other and each with its own statements: those of its merge, up to the first that fails, and if
none fails, the one that marks its objects (`cycle_sends`).
-/

namespace StopArrivals

variable {σ α β : Type}

/-! ## What may be sent -/

def MergePlan.statements (plan : MergePlan) : List Statement :=
  Server.statementFor .updateEvents plan.updates ++
    (Server.statementFor .deleteEvents plan.deletes ++ Server.insertStatements plan.inserts)

/-- The exchanges of a merge. What is planned depends on the rows that the server sends. -/
inductive MergeSends (events : List Event) : List Exchange → Prop where
  | nothing (hnone : events = []) : MergeSends events []
  | refused {reply : Except String Reply} (hsome : events ≠ [])
    (hfailed : Exchange.served ⟨.selectEvents (events.map Event.fingerprint), reply⟩ = false) :
    MergeSends events [⟨.selectEvents (events.map Event.fingerprint), reply⟩]
  | planned {reply : Reply} {rows : List StoredEvent} {trace : List Exchange} (hsome : events ≠ [])
    (hrows : reply.rows.mapM Server.storedEvent = .ok rows)
    (hsends : Sends (planMerge rows events).statements trace) :
    MergeSends events (⟨.selectEvents (events.map Event.fingerprint), .ok reply⟩ :: trace)

/-- The exchanges for a partition, given its events or the fault that there are none. Its objects
are marked if and only if there is no fault and all statements of its merge were served. -/
inductive PartitionSends (p : Partition) : Except Fault (List Event) → List Exchange → Prop where
  | bad {fault : Fault} : PartitionSends p (.error fault) []
  | left {events : List Event} {trace : List Exchange} (hsends : MergeSends events trace)
    (hfailed : ∃ x ∈ trace, x.served = false) : PartitionSends p (.ok events) trace
  | marked {events : List Event} {trace : List Exchange} {reply : Except String Reply}
    (hsends : MergeSends events trace) (hserved : ∀ x ∈ trace, x.served = true) :
    PartitionSends p (.ok events) (trace ++ [⟨.markObjects p.ids, reply⟩])

def Engine.loadOf (root : String) (p : Partition) (e : Engine) :
    Except Cause (List Record) × Engine :=
  (Engine.load root p.paths tripUpdateColumns tripUpdateFilters).effect e

/-- The exchanges for some partitions, one after the other, with an engine to load them. -/
inductive PartitionsSend (root : String) (horizon : Int) :
    Engine → List Partition → List Exchange → Prop where
  | finished {e : Engine} : PartitionsSend root horizon e [] []
  | next {e : Engine} {p : Partition} {ps : List Partition} {trace rest : List Exchange}
    (hfirst : PartitionSends p (prepared horizon (e.loadOf root p).1) trace)
    (hrest : PartitionsSend root horizon (e.loadOf root p).2 ps rest) :
    PartitionsSend root horizon e (p :: ps) (trace ++ rest)

/-! ## Merges -/

/-- A database whose exchanges are written down. -/
abbrev RecordedWorld (σ : Type) : Type := DatabaseWorld (σ × List Exchange)

/-- Some exchanges were made, and nothing else happened. -/
structure Logs (w w' : RecordedWorld σ) (trace : List Exchange) : Prop where
  log : w'.server.2 = w.server.2 ++ trace
  engine : w'.engine = w.engine

theorem Logs.refl (w : RecordedWorld σ) : Logs w w [] := ⟨(List.append_nil _).symm, rfl⟩

theorem Logs.trans {w w₁ w₂ : RecordedWorld σ} {t u : List Exchange} (h₁ : Logs w w₁ t)
    (h₂ : Logs w₁ w₂ u) : Logs w w₂ (t ++ u) where
  log := by rw [h₂.log, h₁.log, List.append_assoc]
  engine := h₂.engine.trans h₁.engine

/-- How an attempt ends that makes some of the given exchanges. -/
inductive AttemptSends (sends : List Exchange → Prop) (w : RecordedWorld σ) :
    Except Fault α × RecordedWorld σ → Prop where
  | failed {fault : Fault} {w' : RecordedWorld σ} {t : List Exchange} (hsends : sends t)
    (hfailed : ∃ x ∈ t, x.served = false) (hlogs : Logs w w' t) :
    AttemptSends sends w (.error fault, w')
  | done {a : α} {w' : RecordedWorld σ} {t : List Exchange} (hsends : sends t)
    (hserved : ∀ x ∈ t, x.served = true) (hlogs : Logs w w' t) : AttemptSends sends w (.ok a, w')

namespace AttemptSends

theorem nothing (a : α) (w : RecordedWorld σ) :
    AttemptSends (Sends []) w ((.ok a, w) : Except Fault α × RecordedWorld σ) :=
  .done .finished (fun _ hx => absurd hx List.not_mem_nil) (.refl w)

theorem following {a b : List Statement} {w : RecordedWorld σ}
    {first : Except Fault α × RecordedWorld σ}
    {next : α → RecordedWorld σ → Except Fault β × RecordedWorld σ}
    (h : AttemptSends (Sends a) w first) (h' : ∀ v w', AttemptSends (Sends b) w' (next v w')) :
    AttemptSends (Sends (a ++ b)) w (StopArrivals.following first next) := by
  rcases h with ⟨hsends, hfailed, hlogs⟩ | @⟨v, w₁, t, hsends, hserved, hlogs⟩
  · exact .failed (hsends.stopped hfailed b) hfailed hlogs
  · rw [following_ok]
    have hnext := h' v w₁
    generalize next v w₁ = second at hnext ⊢
    rcases hnext with ⟨hsends', ⟨x, hx, hfailed⟩, hlogs'⟩ | ⟨hsends', hserved', hlogs'⟩
    · exact .failed (hsends.append hserved hsends') ⟨x, List.mem_append_right _ hx, hfailed⟩
        (hlogs.trans hlogs')
    · exact .done (hsends.append hserved hsends')
        (fun x hx => (List.mem_append.mp hx).elim (hserved x) (hserved' x)) (hlogs.trans hlogs')

end AttemptSends

theorem mergeCall_sends {group : StatementGroup} {statements : List Statement}
    {call : Call (σ × List Exchange) α} {w : RecordedWorld σ}
    (h : CallSends statements w.server (call w.server)) :
    AttemptSends (Sends statements) w (mergeCall group (DatabaseWorld.serverPart.lift call) w) := by
  have hlift : DatabaseWorld.serverPart.lift call w =
      ((call w.server).1, { w with server := (call w.server).2 }) := rfl
  rw [mergeCall, hlift]
  generalize call w.server = result at h ⊢
  rcases h with ⟨hsends, hfailed, hlog⟩ | ⟨hsends, hserved, hlog⟩
  · exact .failed hsends hfailed ⟨hlog, rfl⟩
  · exact .done hsends hserved ⟨hlog, rfl⟩

theorem groupCall_sends {group : StatementGroup} {items : List α}
    {statements : List α → List Statement} (hnil : statements [] = [])
    {call : List α → Call (σ × List Exchange) Nat} {w : RecordedWorld σ}
    (h : CallSends (statements items) w.server (call items w.server)) :
    AttemptSends (Sends (statements items)) w
      (groupCall group items (fun items => DatabaseWorld.serverPart.lift (call items)) w) := by
  rw [groupCall]
  by_cases hitems : items.isEmpty
  · rw [if_pos hitems, List.isEmpty_iff.mp hitems, hnil]
    exact .nothing 0 w
  · rw [if_neg hitems]
    exact mergeCall_sends h

section

variable (S : Server σ) (root : String) (horizon : Int)

/-- The collaborators with a database, all exchanges with it written down. When to stop is up to
`stop`, which sees everything that has happened. -/
def recordedCollaborators (stop : RecordedWorld σ → Bool) : Collaborators (RecordedWorld σ) :=
  { DatabaseWorld.collaborators S.recorded root with shutdownRequested := stop }

variable (stop : RecordedWorld σ → Bool)

theorem apply_sends (plan : MergePlan) (w : RecordedWorld σ) :
    AttemptSends (Sends plan.statements) w
      ((plan.apply (recordedCollaborators S root stop).store).run.effect w) := by
  rw [effect_apply, MergePlan.statements]
  refine .following (groupCall_sends rfl (S.updateEvents_sends _ _)) fun updated w₁ => ?_
  refine .following (groupCall_sends rfl (S.deleteEvents_sends _ _)) fun deleted w₂ => ?_
  rw [← List.append_nil (Server.insertStatements plan.inserts)]
  exact .following (groupCall_sends rfl (S.insertEvents_sends _ _)) fun inserted w₃ => .nothing _ w₃

inductive SelectSends (fingerprints : List Fingerprint) (w : RecordedWorld σ) :
    Except Fault (List StoredEvent) × RecordedWorld σ → Prop where
  | failed {fault : Fault} {reply : Except String Reply} {w' : RecordedWorld σ}
    (hfailed : Exchange.served ⟨.selectEvents fingerprints, reply⟩ = false)
    (hlogs : Logs w w' [⟨.selectEvents fingerprints, reply⟩]) :
    SelectSends fingerprints w (.error fault, w')
  | done {reply : Reply} {rows : List StoredEvent} {w' : RecordedWorld σ}
    (hrows : reply.rows.mapM Server.storedEvent = .ok rows)
    (hlogs : Logs w w' [⟨.selectEvents fingerprints, .ok reply⟩]) :
    SelectSends fingerprints w (.ok rows, w')

theorem select_sends (fingerprints : List Fingerprint) (hsome : ¬fingerprints.isEmpty = true)
    (w : RecordedWorld σ) :
    SelectSends fingerprints w
      (mergeCall .select ((recordedCollaborators S root stop).store.select fingerprints) w) := by
  obtain ⟨reply, s', hexchange⟩ := S.exchange_recorded (.selectEvents fingerprints) w.server
  have hselect : (recordedCollaborators S root stop).store.select fingerprints w =
    ((S.recorded.selectEvents fingerprints w.server).1,
      { w with server := (S.recorded.selectEvents fingerprints w.server).2 }) := rfl
  rw [mergeCall, hselect, Server.selectEvents, if_neg hsome]
  cases reply with
  | error text =>
    rw [Server.ask_of_error hexchange]
    have hfailed : Exchange.served ⟨.selectEvents fingerprints, .error text⟩ = false := rfl
    exact .failed hfailed ⟨rfl, rfl⟩
  | ok reply =>
    rw [Server.ask_of_ok hexchange]
    have hserved := served_select fingerprints reply
    cases hrows : reply.rows.mapM Server.storedEvent with
    | error cause =>
      rw [hrows] at hserved
      exact .failed hserved ⟨rfl, rfl⟩
    | ok rows => exact .done hrows ⟨rfl, rfl⟩

theorem merge_sends (events : List Event) (w : RecordedWorld σ) :
    AttemptSends (MergeSends events) w
      ((mergeEvents (recordedCollaborators S root stop).store events).run.effect w) := by
  rw [effect_mergeEvents]
  by_cases hempty : events.isEmpty
  · rw [if_pos hempty]
    exact .done (.nothing (List.isEmpty_iff.mp hempty)) (fun _ hx => absurd hx List.not_mem_nil)
      (.refl w)
  have hsome : events ≠ [] := fun hnil => hempty (List.isEmpty_iff.mpr hnil)
  have hselect := select_sends S root stop (events.map Event.fingerprint)
    (by rwa [List.isEmpty_map]) w
  rw [if_neg hempty]
  generalize mergeCall .select _ w = selected at hselect ⊢
  rcases hselect with ⟨hfailed, hlogs⟩ | @⟨reply, rows, w₁, hrows, hlogs⟩
  · exact .failed (.refused hsome hfailed) ⟨_, List.mem_singleton_self _, hfailed⟩ hlogs
  rw [following_ok]
  have happly := apply_sends S root stop (planMerge rows events) w₁
  generalize ((planMerge rows events).apply (recordedCollaborators S root stop).store).run.effect
    w₁ = applied at happly ⊢
  rcases happly with ⟨hsends, ⟨x, hx, hfailed⟩, hlogs₁⟩ | ⟨hsends, hserved, hlogs₁⟩
  · exact .failed (.planned hsome hrows hsends) ⟨x, List.mem_cons_of_mem _ hx, hfailed⟩
      (hlogs.trans hlogs₁)
  · refine .done (.planned hsome hrows hsends) (List.forall_mem_cons.mpr ⟨?_, hserved⟩)
      (hlogs.trans hlogs₁)
    rw [served_select, hrows]
    rfl

/-! ## Partitions -/

/-- What a partition does to the log and to the engine. -/
structure PartitionLogs (p : Partition) (w : RecordedWorld σ) (result : Outcome × RecordedWorld σ) :
    Prop where
  outcome : result.1.partition = p.key
  engine : result.2.engine = (w.engine.loadOf root p).2
  log : ∃ trace, PartitionSends p (prepared horizon (w.engine.loadOf root p).1) trace ∧
    result.2.server.2 = w.server.2 ++ trace

theorem processPartition_logs {p : Partition} (hobjects : p.objects ≠ []) (w : RecordedWorld σ) :
    PartitionLogs root horizon p w
      (((recordedCollaborators S root stop).processPartition horizon p).effect w) := by
  have hload : (recordedCollaborators S root stop).loadOf p w =
      ((w.engine.loadOf root p).1, { w with engine := (w.engine.loadOf root p).2 }) := rfl
  rw [Collaborators.effect_processPartition, Collaborators.effect_loadAndMerge, hload]
  generalize hloaded : { w with engine := (w.engine.loadOf root p).2 } = w₁
  have hserver : w₁.server = w.server := hloaded ▸ rfl
  have hengine : w₁.engine = (w.engine.loadOf root p).2 := hloaded ▸ rfl
  cases hprepared : prepared horizon (w.engine.loadOf root p).1 with
  | error fault =>
    refine ⟨rfl, hengine, [], hprepared ▸ .bad, ?_⟩
    rw [following_error, hserver, List.append_nil]
  | ok events =>
    rw [following_ok]
    have hmerge := merge_sends S root stop events w₁
    generalize (mergeEvents (recordedCollaborators S root stop).store events).run.effect w₁ =
      merged at hmerge ⊢
    rcases hmerge with ⟨hsends, hfailed, hlogs⟩ | @⟨report, w₂, trace, hsends, hserved, hlogs⟩
    · exact ⟨rfl, hlogs.engine.trans hengine, _, hprepared ▸ .left hsends hfailed,
        hserver ▸ hlogs.log⟩
    · have hids : ¬p.ids.isEmpty = true := by
        rwa [Partition.ids, List.isEmpty_map, List.isEmpty_iff]
      have hmark := S.markObjects_sends p.ids w₂.server
      rw [Server.statementFor, if_neg hids] at hmark
      have hlift : (recordedCollaborators S root stop).ledger.mark p.ids w₂ =
          ((S.recorded.markObjects p.ids w₂.server).1,
            { w₂ with server := (S.recorded.markObjects p.ids w₂.server).2 }) := rfl
      dsimp only
      rw [hlift]
      generalize S.recorded.markObjects p.ids w₂.server = marked at hmark ⊢
      obtain ⟨reply, hlog⟩ := hmark.single rfl
      have hall : marked.2.2 = w.server.2 ++ (trace ++ [⟨.markObjects p.ids, reply⟩]) := by
        rw [hlog, hlogs.log, hserver, List.append_assoc]
      have hmarked : PartitionSends p (prepared horizon (w.engine.loadOf root p).1)
          (trace ++ [⟨.markObjects p.ids, reply⟩]) := hprepared ▸ .marked hsends hserved
      rcases marked with ⟨_ | _, s'⟩
      · exact ⟨rfl, hlogs.engine.trans hengine, _, hmarked, hall⟩
      · exact ⟨rfl, hlogs.engine.trans hengine, _, hmarked, hall⟩

/-! ## Cycles -/

/-- What a cycle does with its partitions: some of them are attempted, and those left are left
because it was to stop. -/
structure PartitionsLog (attempted left : List Partition) (w : RecordedWorld σ)
    (result : CycleReport × RecordedWorld σ) : Prop where
  outcomes : result.1.outcomes.map Outcome.partition = attempted.map Partition.key
  skipped : result.1.skipped = left.length
  stopped : left ≠ [] → stop result.2 = true
  log : ∃ trace, PartitionsSend root horizon w.engine attempted trace ∧
    result.2.server.2 = w.server.2 ++ trace

theorem processAll_logs : ∀ (ps : List Partition), (∀ p ∈ ps, p.objects ≠ []) →
    ∀ w : RecordedWorld σ, ∃ attempted left, ps = attempted ++ left ∧
      PartitionsLog root horizon stop attempted left w
        (((recordedCollaborators S root stop).processAll horizon ps).effect w)
  | [], _, w =>
      ⟨[], [], rfl, rfl, rfl, fun h => absurd rfl h, [], .finished, (List.append_nil _).symm⟩
  | p :: ps, hobjects, w => by
      rw [Collaborators.effect_processAll_cons]
      by_cases hstop : (recordedCollaborators S root stop).shutdownRequested w = true
      · rw [if_pos hstop]
        exact ⟨[], p :: ps, rfl, rfl, rfl, fun _ => hstop, [], .finished, (List.append_nil _).symm⟩
      rw [if_neg hstop]
      have hfirst := processPartition_logs S root horizon stop
        (hobjects p (List.mem_cons_self ..)) w
      generalize ((recordedCollaborators S root stop).processPartition horizon p).effect w = first
        at hfirst ⊢
      obtain ⟨trace, hsends, hlog⟩ := hfirst.log
      obtain ⟨attempted, left, hparts, hrest⟩ :=
        processAll_logs ps (fun q hq => hobjects q (List.mem_cons_of_mem _ hq)) first.2
      obtain ⟨rest, hsendsRest, hlogRest⟩ := hrest.log
      refine ⟨p :: attempted, left, congrArg (p :: ·) hparts, ?_, hrest.skipped, hrest.stopped,
        trace ++ rest, ?_, ?_⟩
      · show first.1.partition :: _ = p.key :: _
        rw [hfirst.outcome]
        exact congrArg _ hrest.outcomes
      · exact .next hsends (hfirst.engine ▸ hsendsRest)
      · show _ = w.server.2 ++ (trace ++ rest)
        rw [← List.append_assoc, ← hlog]
        exact hlogRest

theorem effect_serviceCycle {ω : Type} (c : Collaborators ω) (tag : String) (s : Service ω) :
    ((Service.runCycle c horizon tag).effect s).1 = ((c.runCycle horizon tag).effect s.world).1 ∧
      ((Service.runCycle c horizon tag).effect s).2.world =
        ((c.runCycle horizon tag).effect s.world).2 := by
  simp only [Service.runCycle, Step.effect_bind, Step.effect_noting, Step.effect_post,
    Part.effect_step, Part.lift, Service.worldPart]
  rcases (c.runCycle horizon tag).effect s.world with ⟨_ | report, w⟩
  · exact ⟨rfl, rfl⟩
  · exact ⟨rfl, rfl⟩

/-- All that a cycle sends. The listing comes first, and if it fails, that is all, and the cycle
fails. Otherwise the partitions of the listed objects are attempted in the order of their folders,
up to a point at which the cycle is to stop, and what is sent for one is sent before the next. -/
theorem cycle_sends (tag : String) (s : Service (RecordedWorld σ)) :
    let result := (Service.runCycle (recordedCollaborators S root stop) horizon tag).effect s
    ∃ listing rest,
      result.2.world.server.2 = s.world.server.2 ++ ⟨.listObjects tag, listing⟩ :: rest ∧
      ((∃ text cause, listing = .error text ∧ rest = [] ∧ result.1 = .error cause) ∨
        ∃ reply report attempted left, listing = .ok reply ∧ result.1 = .ok report ∧
          groupPartitions (reply.rows.map fun row => ⟨row.id, row.path⟩) = attempted ++ left ∧
          KeysAscend (attempted ++ left) ∧
          report.outcomes.map Outcome.partition = attempted.map Partition.key ∧
          report.skipped = left.length ∧ (left ≠ [] → stop result.2.world = true) ∧
          PartitionsSend root horizon s.world.engine attempted rest) := by
  intro result
  obtain ⟨hanswer, hworld⟩ := effect_serviceCycle horizon (recordedCollaborators S root stop) tag s
  rw [Collaborators.effect_runCycle] at hanswer hworld
  obtain ⟨listing, s', hexchange⟩ := S.exchange_recorded (.listObjects tag) s.world.server
  have hlist : (recordedCollaborators S root stop).ledger.list tag s.world =
    ((S.recorded.listObjects tag s.world.server).1,
      { s.world with server := (S.recorded.listObjects tag s.world.server).2 }) := rfl
  rw [hlist, Server.listObjects] at hanswer hworld
  cases listing with
  | error text =>
    rw [Server.ask_of_error hexchange] at hanswer hworld
    exact ⟨.error text, [], congrArg (·.server.2) hworld, .inl ⟨text, _, rfl, rfl, hanswer⟩⟩
  | ok reply =>
    rw [Server.ask_of_ok hexchange, following_ok] at hanswer hworld
    obtain ⟨attempted, left, hpartitions, hlogs⟩ := processAll_logs S root horizon stop
      (groupPartitions (reply.rows.map fun row => ⟨row.id, row.path⟩))
      (fun p hp => (mem_groupPartitions.mp hp).1)
      { s.world with server := (s', s.world.server.2 ++ [⟨.listObjects tag, .ok reply⟩]) }
    obtain ⟨rest, hsends, hlog⟩ := hlogs.log
    refine ⟨.ok reply, rest, ?_, .inr ⟨reply, _, attempted, left, rfl, hanswer, hpartitions,
      hpartitions ▸ keysAscend_groupPartitions _, hlogs.outcomes, hlogs.skipped, ?_, hsends⟩⟩
    · rw [hworld]
      refine hlog.trans ?_
      rw [List.append_assoc]
      rfl
    · rw [hworld]
      exact hlogs.stopped

end

end StopArrivals
