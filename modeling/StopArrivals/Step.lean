import StopArrivals.Notice

/-!
# Steps

A step works on a state: it answers a value, leaves a state and posts notices. Notices are only
ever added, so what a step does to the state cannot depend on them. A step that can fail answers
an `Except`, and a failure keeps the state and the notices of everything before it.
-/

namespace StopArrivals

def Step (σ α : Type) : Type := σ → α × σ × List Notice

namespace Step

variable {σ ω α β : Type}

def value (x : Step σ α) (s : σ) : α := (x s).1

def state (x : Step σ α) (s : σ) : σ := (x s).2.1

/-- The notices posted, oldest first. -/
def notices (x : Step σ α) (s : σ) : List Notice := (x s).2.2

protected def pure (a : α) : Step σ α := fun s => (a, s, [])

protected def bind (x : Step σ α) (f : α → Step σ β) : Step σ β := fun s =>
  let (a, s₁, n₁) := x s
  let (b, s₂, n₂) := f a s₁
  (b, s₂, n₁ ++ n₂)

instance : Monad (Step σ) where
  pure := Step.pure
  bind := Step.bind

/-- Post one notice. -/
def post (n : Notice) : Step σ Unit := fun s => ((), s, [n])

/-- Answer a value and post the notices that came with it. -/
def noting (x : α × List Notice) : Step σ α := fun s => (x.1, s, x.2)

/-- Read something off the state. -/
def ask (f : σ → α) : Step σ α := fun s => (f s, s, [])

/-- Work on the state in silence. -/
def perform (f : σ → α × σ) : Step σ α := fun s => ((f s).1, (f s).2, [])

theorem run_pure (a : α) (s : σ) : (pure a : Step σ α) s = (a, s, []) := rfl

theorem run_bind (x : Step σ α) (f : α → Step σ β) (s : σ) :
    (x >>= f) s =
      let y := f (x.value s) (x.state s)
      (y.1, y.2.1, x.notices s ++ y.2.2) := rfl

instance : LawfulMonad (Step σ) :=
  LawfulMonad.mk' _
    (fun x => by
      funext s
      show ((x s).1, (x s).2.1, (x s).2.2 ++ []) = x s
      rw [List.append_nil])
    (fun a f => by
      funext s
      show ((f a s).1, (f a s).2.1, [] ++ (f a s).2.2) = f a s
      rw [List.nil_append])
    (fun x f g => by
      funext s
      simp only [run_bind, value, state, notices, List.append_assoc])

end Step

/-- A component of a larger state: how to read it and how to put a new one in its place. -/
structure Part (ω σ : Type) where
  get : ω → σ
  put : σ → ω → ω

namespace Part

variable {σ ω α : Type}

/-- Work on a component. -/
def lift (p : Part ω σ) (f : σ → α × σ) : ω → α × ω := fun w =>
  ((f (p.get w)).1, p.put (f (p.get w)).2 w)

/-- A step on a component as a step on the whole. -/
def step (p : Part ω σ) (x : Step σ α) : Step ω α := fun w =>
  (x.value (p.get w), p.put (x.state (p.get w)) w, x.notices (p.get w))

end Part

end StopArrivals
