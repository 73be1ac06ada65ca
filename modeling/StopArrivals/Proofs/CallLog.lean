import StopArrivals.Proofs.Obedience
import StopArrivals.Proofs.Views

/-!
# Calls that are written down

Collaborators that keep a log of the calls that are made to them, with what each call is given. The
log is beside the state, so the answers and the state are those of a cycle that is not watched
(`Collaborators.runCycle_logged`).
-/

namespace StopArrivals

variable {ω α : Type}

inductive CollaboratorCall where
  | list (tag : String)
  | load (paths columns : List String) (filters : List Filter)
  | select (fingerprints : List Fingerprint)
  | update (updates : List TimestampUpdate)
  | delete (ids : List Int)
  | insert (events : List Event)
  | mark (ids : List Int)

/-- Make a call and write it down. -/
def loggedCall (entry : CollaboratorCall) (call : Call ω α) :
    Call (ω × List CollaboratorCall) α :=
  fun w => ((call w.1).1, (call w.1).2, w.2 ++ [entry])

namespace Collaborators

def logged (c : Collaborators ω) : Collaborators (ω × List CollaboratorCall) where
  ledger :=
    { list := fun tag => loggedCall (.list tag) (c.ledger.list tag)
      mark := fun ids => loggedCall (.mark ids) (c.ledger.mark ids) }
  batches :=
    { load := fun paths columns filters w =>
        let loaded := c.batches.load paths columns filters w.1
        (loaded.1, (loaded.2.1, w.2 ++ [.load paths columns filters]), loaded.2.2) }
  store :=
    { select := fun fingerprints => loggedCall (.select fingerprints) (c.store.select fingerprints)
      update := fun updates => loggedCall (.update updates) (c.store.update updates)
      delete := fun ids => loggedCall (.delete ids) (c.store.delete ids)
      insert := fun events => loggedCall (.insert events) (c.store.insert events) }
  shutdownRequested := fun w => c.shutdownRequested w.1

theorem shows_logged (c : Collaborators ω) : c.logged.Shows Prod.fst c where
  store := ⟨fun _ _ => rfl, fun _ _ => rfl, fun _ _ => rfl, fun _ _ => rfl⟩
  load _ _ := rfl
  mark _ _ := rfl
  shutdown _ := rfl

/-- Whatever is done, what was written down stays. -/
theorem obeys_logged (c : Collaborators ω) : c.logged.Obeys fun w w' => w.2 <+: w'.2 where
  store :=
    { refl := fun _ => List.prefix_rfl
      trans := List.IsPrefix.trans
      select := fun _ _ => List.prefix_append ..
      update := fun _ _ => List.prefix_append ..
      delete := fun _ _ => List.prefix_append ..
      insert := fun _ _ => List.prefix_append .. }
  list _ _ := List.prefix_append ..
  load _ _ := List.prefix_append ..
  mark _ _ := List.prefix_append ..

/-- Keeping a log does not change a cycle. -/
theorem runCycle_logged (c : Collaborators ω) (horizon : Int) (tag : String)
    (w : ω × List CollaboratorCall) :
    seen Prod.fst ((c.logged.runCycle horizon tag).effect w) =
      (c.runCycle horizon tag).effect w.1 :=
  c.shows_logged.effect_runCycle horizon rfl

end Collaborators

end StopArrivals
