import Mathlib.Algebra.Ring.Nat
import StopArrivals.Database.Client
import StopArrivals.Proofs.Effects

/-!
# What is sent to a database

A recorded server answers as the server it records and writes down every exchange. `Sends` says how
a list of statements is worked off: one after the other up to the first that fails, and if that was
one within a transaction, the transaction is rolled back. Each operation on the database works off
its own statements, and it succeeds exactly if all of them were served. An insert is the only one
with several statements; `Server.InsertRun` lists all that can be exchanged for it, with the result.
-/

namespace StopArrivals

variable {σ α : Type}

structure Exchange where
  statement : Statement
  reply : Except String Reply

/-- The statement did not fail, and events that it asked for can be read. -/
def Exchange.served (x : Exchange) : Bool :=
  match x.reply with
  | .error _ => false
  | .ok reply =>
    match x.statement with
    | .selectEvents _ => (reply.rows.mapM Server.storedEvent).isOk
    | _ => true

theorem served_select (fingerprints : List Fingerprint) (reply : Reply) :
    Exchange.served ⟨.selectEvents fingerprints, .ok reply⟩ =
      (reply.rows.mapM Server.storedEvent).isOk := rfl

/-- The server, and all exchanges so far. -/
def Server.recorded (S : Server σ) : Server (σ × List Exchange) where
  exchange statement s :=
    ((S.exchange statement s.1).1, (S.exchange statement s.1).2,
      s.2 ++ [⟨statement, (S.exchange statement s.1).1⟩])

/-! ## Working off statements -/

/-- A failure of the statement ends a transaction. -/
def Statement.inTransaction : Statement → Bool
  | insertEvents _ | commit => true
  | _ => false

/-- The exchanges that come of statements to be sent one after the other. -/
inductive Sends : List Statement → List Exchange → Prop where
  | finished : Sends [] []
  | served {statement : Statement} {reply : Except String Reply} {rest : List Statement}
    {trace : List Exchange} (hserved : Exchange.served ⟨statement, reply⟩ = true)
    (h : Sends rest trace) : Sends (statement :: rest) (⟨statement, reply⟩ :: trace)
  | failed {statement : Statement} {reply : Except String Reply} {rest : List Statement}
    (hfailed : Exchange.served ⟨statement, reply⟩ = false)
    (houtside : statement.inTransaction = false) : Sends (statement :: rest) [⟨statement, reply⟩]
  | abandoned {statement : Statement} {reply answer : Except String Reply} {rest : List Statement}
    (hfailed : Exchange.served ⟨statement, reply⟩ = false)
    (hinside : statement.inTransaction = true) :
    Sends (statement :: rest) [⟨statement, reply⟩, ⟨.rollback, answer⟩]

namespace Sends

variable {a b : List Statement} {t u : List Exchange}

/-- After statements that were all served come the next ones. -/
theorem append (h : Sends a t) (hall : ∀ x ∈ t, x.served = true) (h' : Sends b u) :
    Sends (a ++ b) (t ++ u) := by
  induction h with
  | finished => exact h'
  | served hserved _ ih =>
    exact .served hserved (ih fun x hx => hall x (List.mem_cons_of_mem _ hx))
  | failed hfailed | abandoned hfailed =>
    rw [hall _ (List.mem_cons_self ..)] at hfailed
    cases hfailed

/-- After a failure nothing else is sent. -/
theorem stopped (h : Sends a t) (hsome : ∃ x ∈ t, x.served = false) (b : List Statement) :
    Sends (a ++ b) t := by
  induction h with
  | finished =>
    obtain ⟨x, hx, -⟩ := hsome
    exact absurd hx List.not_mem_nil
  | served hserved _ ih =>
    obtain ⟨x, hx, hfailed⟩ := hsome
    refine .served hserved (ih ⟨x, (List.mem_cons.mp hx).resolve_left ?_, hfailed⟩)
    rintro rfl
    rw [hserved] at hfailed
    cases hfailed
  | failed hfailed houtside => exact .failed hfailed houtside
  | abandoned hfailed hinside => exact .abandoned hfailed hinside

theorem single {statement : Statement} (houtside : statement.inTransaction = false)
    (h : Sends [statement] t) : ∃ reply, t = [⟨statement, reply⟩] := by
  cases h with
  | @served _ reply _ _ _ h =>
    cases h
    exact ⟨reply, rfl⟩
  | @failed _ reply => exact ⟨reply, rfl⟩
  | abandoned _ hinside =>
    rw [houtside] at hinside
    cases hinside

end Sends

inductive CallSends (statements : List Statement) (s : σ × List Exchange) :
    Except Cause α × (σ × List Exchange) → Prop where
  | failed {cause : Cause} {s' : σ × List Exchange} {t : List Exchange}
    (hsends : Sends statements t) (hfailed : ∃ x ∈ t, x.served = false)
    (hlog : s'.2 = s.2 ++ t) : CallSends statements s (.error cause, s')
  | done {a : α} {s' : σ × List Exchange} {t : List Exchange}
    (hsends : Sends statements t) (hserved : ∀ x ∈ t, x.served = true)
    (hlog : s'.2 = s.2 ++ t) : CallSends statements s (.ok a, s')

theorem CallSends.single {statement : Statement} {s : σ × List Exchange}
    {result : Except Cause α × (σ × List Exchange)} (houtside : statement.inTransaction = false)
    (h : CallSends [statement] s result) :
    ∃ reply, result.2.2 = s.2 ++ [⟨statement, reply⟩] := by
  cases h with
  | failed hsends _ hlog | done hsends _ hlog =>
    obtain ⟨reply, rfl⟩ := hsends.single houtside
    exact ⟨reply, hlog⟩

namespace Server

variable (S : Server σ)

theorem exchange_recorded (statement : Statement) (s : σ × List Exchange) :
    ∃ reply s', S.recorded.exchange statement s = (reply, s', s.2 ++ [⟨statement, reply⟩]) :=
  ⟨_, _, rfl⟩

theorem callSends_nothing (a : α) (s : σ × List Exchange) :
    CallSends [] s ((.ok a, s) : Except Cause α × (σ × List Exchange)) :=
  .done .finished (fun _ hx => absurd hx List.not_mem_nil) (List.append_nil _).symm

section

variable {S : Server σ} {s s' : σ} {statement : Statement} {undertaking text : String}
  {reply : Reply}

theorem send_of_error (h : S.exchange statement s = (.error text, s')) :
    S.send statement s = (.error (serverCause text), s') := by
  rw [send, h]

theorem send_of_ok (h : S.exchange statement s = (.ok reply, s')) :
    S.send statement s = (.ok reply, s') := by
  rw [send, h]

theorem ask_of_error (h : S.exchange statement s = (.error text, s'))
    {read : Reply → Except Cause α} :
    S.ask undertaking statement read s = (.error ((serverCause text).within undertaking), s') := by
  rw [ask, send_of_error h]

theorem ask_of_ok (h : S.exchange statement s = (.ok reply, s')) {read : Reply → Except Cause α} :
    S.ask undertaking statement read s = (read reply, s') := by
  rw [ask, send_of_ok h]

end

/-- A statement by itself, whose reply is read as `served` says. -/
theorem ask_sends {undertaking : String} {statement : Statement} {read : Reply → Except Cause α}
    (houtside : statement.inTransaction = false)
    (hread : ∀ reply, (read reply).isOk = Exchange.served ⟨statement, .ok reply⟩)
    (s : σ × List Exchange) :
    CallSends [statement] s (S.recorded.ask undertaking statement read s) := by
  obtain ⟨reply, s', hexchange⟩ := S.exchange_recorded statement s
  cases reply with
  | error text =>
    rw [ask_of_error hexchange]
    exact .failed (.failed rfl houtside)
      ⟨_, List.mem_singleton_self _, rfl⟩ rfl
  | ok reply =>
    have hserved := hread reply
    rw [ask_of_ok hexchange]
    cases hvalue : read reply with
    | error cause =>
      rw [hvalue] at hserved
      exact .failed (.failed hserved.symm houtside)
        ⟨_, List.mem_singleton_self _, hserved.symm⟩ rfl
    | ok a =>
      rw [hvalue] at hserved
      exact .done (.served hserved.symm .finished)
        (List.forall_mem_singleton.mpr hserved.symm) rfl

/-! ## The operations -/

def statementFor (statement : List α → Statement) (items : List α) : List Statement :=
  if items.isEmpty then [] else [statement items]

/-- The statements of an insert: all chunks in one transaction. -/
def insertStatements (events : List Event) : List Statement :=
  if events.isEmpty then []
  else .beginTransaction :: ((chunks events).map Statement.insertEvents ++ [.commit])

/-- A change that is sent unless there is nothing to change. -/
theorem change_sends {undertaking : String} {statement : List α → Statement} (items : List α)
    (houtside : (statement items).inTransaction = false)
    (hread : ∀ reply, Exchange.served ⟨statement items, .ok reply⟩ = true)
    (s : σ × List Exchange) :
    CallSends (statementFor statement items) s
      ((if items.isEmpty then fun s => (.ok 0, s)
        else S.recorded.change undertaking (statement items)) s) := by
  rw [statementFor]
  by_cases hitems : items.isEmpty
  · rw [if_pos hitems, if_pos hitems]
    exact callSends_nothing 0 s
  · rw [if_neg hitems, if_neg hitems, change]
    refine S.ask_sends houtside (fun reply => ?_) s
    rw [hread reply]
    rfl

theorem markObjects_sends (ids : List Int) (s : σ × List Exchange) :
    CallSends (statementFor .markObjects ids) s (S.recorded.markObjects ids s) :=
  S.change_sends ids rfl (fun _ => rfl) s

theorem updateEvents_sends (updates : List TimestampUpdate) (s : σ × List Exchange) :
    CallSends (statementFor .updateEvents updates) s (S.recorded.updateEvents updates s) :=
  S.change_sends updates rfl (fun _ => rfl) s

theorem deleteEvents_sends (ids : List Int) (s : σ × List Exchange) :
    CallSends (statementFor .deleteEvents ids) s (S.recorded.deleteEvents ids s) :=
  S.change_sends ids rfl (fun _ => rfl) s

/-! ## Inserts -/

/-- The exchanges of inserts that were served. -/
def insertsServed (done : List (List Event × Reply)) : List Exchange :=
  done.map fun x => ⟨.insertEvents x.1, .ok x.2⟩

/-- How the chunks can be worked off. -/
inductive ChunksRun (chunks : List (List Event)) (s : σ × List Exchange) :
    Except Cause Nat × (σ × List Exchange) → Prop where
  | refused (done : List (List Event × Reply)) (chunk : List Event) (rest : List (List Event))
    {text : String} {s' : σ × List Exchange}
    (hchunks : chunks = done.map Prod.fst ++ chunk :: rest)
    (hlog : s'.2 = s.2 ++ (insertsServed done ++ [⟨.insertEvents chunk, .error text⟩])) :
    ChunksRun chunks s
      (.error ((serverCause text).within "insert trip_update_events"), s')
  | served (done : List (List Event × Reply)) {s' : σ × List Exchange}
    (hchunks : chunks = done.map Prod.fst) (hlog : s'.2 = s.2 ++ insertsServed done) :
    ChunksRun chunks s (.ok (done.map (·.2.affected)).sum, s')

/-- What is exchanged for the insert of some events, and what comes of it. -/
inductive InsertRun (events : List Event) : List Exchange → Except Cause Nat → Prop where
  | notBegun {text : String} :
    InsertRun events [⟨.beginTransaction, .error text⟩] (.error (serverCause text))
  | refused {begun : Reply} (done : List (List Event × Reply)) (chunk : List Event)
    (rest : List (List Event)) {text : String} {answer : Except String Reply}
    (hchunks : chunks events = done.map Prod.fst ++ chunk :: rest) :
    InsertRun events
      (⟨.beginTransaction, .ok begun⟩ :: (insertsServed done ++
        [⟨.insertEvents chunk, .error text⟩, ⟨.rollback, answer⟩]))
      (.error ((serverCause text).within "insert trip_update_events"))
  | notCommitted {begun : Reply} (done : List (List Event × Reply)) {text : String}
    {answer : Except String Reply} (hchunks : chunks events = done.map Prod.fst) :
    InsertRun events
      (⟨.beginTransaction, .ok begun⟩ :: (insertsServed done ++
        [⟨.commit, .error text⟩, ⟨.rollback, answer⟩]))
      (.error (serverCause text))
  | committed {begun committed : Reply} (done : List (List Event × Reply))
    (hchunks : chunks events = done.map Prod.fst) :
    InsertRun events
      (⟨.beginTransaction, .ok begun⟩ :: (insertsServed done ++ [⟨.commit, .ok committed⟩]))
      (.ok (done.map (·.2.affected)).sum)

theorem insertChunks_run : ∀ (chunks : List (List Event)) (s : σ × List Exchange),
    ChunksRun chunks s (S.recorded.insertChunks chunks s)
  | [], s => .served [] rfl (List.append_nil _).symm
  | chunk :: chunks, s => by
      obtain ⟨reply, s', hexchange⟩ := S.exchange_recorded (.insertEvents chunk) s
      rw [insertChunks, change]
      dsimp only
      cases reply with
      | error text =>
        rw [ask_of_error hexchange]
        exact .refused [] chunk chunks rfl rfl
      | ok reply =>
        have hrest := insertChunks_run chunks (s', s.2 ++ [⟨.insertEvents chunk, .ok reply⟩])
        rw [ask_of_ok hexchange]
        dsimp only
        generalize S.recorded.insertChunks chunks
          (s', s.2 ++ [⟨.insertEvents chunk, .ok reply⟩]) = result at hrest ⊢
        cases hrest with
        | refused done failing rest hchunks hlog =>
          refine .refused ((chunk, reply) :: done) failing rest ?_ ?_
          · simp [hchunks]
          · simp [hlog, insertsServed]
        | served done hchunks hlog =>
          refine .served ((chunk, reply) :: done) ?_ ?_
          · simp [hchunks]
          · simp [hlog, insertsServed]

/-- On every server an insert goes in one of these ways. -/
theorem insertEvents_run {events : List Event} (hne : events ≠ []) (s : σ × List Exchange) :
    ∃ trace, (S.recorded.insertEvents events s).2.2 = s.2 ++ trace ∧
      InsertRun events trace (S.recorded.insertEvents events s).1 := by
  rw [insertEvents, if_neg (by simpa using hne)]
  obtain ⟨begun, s₁, hbegin⟩ := S.exchange_recorded .beginTransaction s
  cases begun with
  | error text =>
    rw [send_of_error hbegin]
    exact ⟨_, rfl, .notBegun⟩
  | ok begun =>
  rw [send_of_ok hbegin]
  have hchunks := S.insertChunks_run (chunks events)
    (s₁, s.2 ++ [⟨.beginTransaction, .ok begun⟩])
  dsimp only
  generalize S.recorded.insertChunks (chunks events)
    (s₁, s.2 ++ [⟨.beginTransaction, .ok begun⟩]) = inserted at hchunks ⊢
  cases hchunks with
  | @refused done chunk rest text s₂ hchunks hlog =>
    obtain ⟨answer, s₃, hrollback⟩ := S.exchange_recorded .rollback s₂
    dsimp only
    rw [abandon, hrollback, hlog]
    refine ⟨⟨.beginTransaction, .ok begun⟩ :: (insertsServed done ++
      [⟨.insertEvents chunk, .error text⟩, ⟨.rollback, answer⟩]), ?_,
      .refused done chunk rest hchunks⟩
    simp
  | @served done s₂ hchunks hlog =>
    obtain ⟨committed, s₃, hcommit⟩ := S.exchange_recorded .commit s₂
    dsimp only
    cases committed with
    | error text =>
      obtain ⟨answer, s₄, hrollback⟩ := S.exchange_recorded .rollback
        (s₃, s₂.2 ++ [⟨.commit, .error text⟩])
      rw [send_of_error hcommit]
      dsimp only
      rw [abandon, hrollback, hlog]
      refine ⟨⟨.beginTransaction, .ok begun⟩ :: (insertsServed done ++
        [⟨.commit, .error text⟩, ⟨.rollback, answer⟩]), ?_, .notCommitted done hchunks⟩
      simp
    | ok committed =>
      rw [send_of_ok hcommit, hlog]
      refine ⟨⟨.beginTransaction, .ok begun⟩ :: (insertsServed done ++
        [⟨.commit, .ok committed⟩]), ?_, .committed done hchunks⟩
      simp

theorem sends_insertsServed (done : List (List Event × Reply)) :
    Sends ((done.map Prod.fst).map Statement.insertEvents) (insertsServed done) := by
  induction done with
  | nil => exact .finished
  | cons x done ih => exact .served rfl ih

theorem served_of_mem_insertsServed {done : List (List Event × Reply)} {x : Exchange}
    (h : x ∈ insertsServed done) : x.served = true := by
  obtain ⟨_, _, rfl⟩ := List.mem_map.mp h
  rfl

/-- What comes after a begin and some inserts that were served is worked off next. -/
theorem sends_begun {begun : Reply} {done : List (List Event × Reply)} {rest : List Statement}
    {trace : List Exchange} (h : Sends rest trace) :
    Sends (.beginTransaction :: ((done.map Prod.fst).map Statement.insertEvents ++ rest))
      (⟨.beginTransaction, .ok begun⟩ :: (insertsServed done ++ trace)) :=
  .served rfl ((sends_insertsServed done).append (fun _ => served_of_mem_insertsServed) h)

theorem insertEvents_sends (events : List Event) (s : σ × List Exchange) :
    CallSends (insertStatements events) s (S.recorded.insertEvents events s) := by
  by_cases hempty : events = []
  · rw [hempty]
    exact callSends_nothing 0 s
  obtain ⟨trace, hlog, hrun⟩ := S.insertEvents_run hempty s
  rw [insertStatements, if_neg (by simpa using hempty)]
  generalize S.recorded.insertEvents events s = inserted at hlog hrun ⊢
  obtain ⟨result, s'⟩ := inserted
  cases hrun with
  | notBegun => exact .failed (.failed rfl rfl) ⟨_, List.mem_singleton_self _, rfl⟩ hlog
  | refused done chunk rest hchunks =>
    rw [hchunks, List.map_append, List.append_assoc]
    exact .failed (sends_begun (.abandoned rfl rfl))
      ⟨_, List.mem_cons_of_mem _ (List.mem_append_right _ (List.mem_cons_self ..)), rfl⟩ hlog
  | notCommitted done hchunks =>
    rw [hchunks]
    exact .failed (sends_begun (.abandoned rfl rfl))
      ⟨_, List.mem_cons_of_mem _ (List.mem_append_right _ (List.mem_cons_self ..)), rfl⟩ hlog
  | committed done hchunks =>
    rw [hchunks]
    refine .done (sends_begun (.served rfl .finished)) (List.forall_mem_cons.mpr ⟨rfl, ?_⟩) hlog
    refine List.forall_mem_append.mpr ⟨fun _ => served_of_mem_insertsServed, ?_⟩
    exact List.forall_mem_singleton.mpr rfl

end Server

end StopArrivals
