import DataAccess.Error

/-!
Tasks that share a world. A task changes the world in steps, each made in one go; between the
steps other tasks may have theirs. What several steps need undisturbed has a gate, which one task
at a time holds and for which the others queue.
-/
namespace DataAccess

inductive Gate where
  | connection (session : Nat)
  | catalogue (number : Nat)
  | cache (session : Nat) (entity : String)
  deriving DecidableEq, Repr

/-- A task that ends with a value of type `α`. -/
inductive Routine (W α : Type) : Type 1 where
  | done (result : α)
  | step {β : Type} (change : W → β × W) (next : β → Routine W α)
  | enter (gate : Gate) (next : Routine W α)
  | leave (gate : Gate) (next : Routine W α)

namespace Routine
variable {W α β : Type}

protected def bind (r : Routine W α) (f : α → Routine W β) : Routine W β :=
  match r with
  | done a => f a
  | step change next => .step change fun b => (next b).bind f
  | enter gate next => .enter gate (next.bind f)
  | leave gate next => .leave gate (next.bind f)

instance : Monad (Routine W) where
  pure := .done
  bind := .bind

/-- The result of a task that has the world for itself, and the world after it. -/
def run : Routine W α → W → α × W
  | done a, w => (a, w)
  | step change next, w =>
    let (b, w) := change w
    (next b).run w
  | enter _ next, w => next.run w
  | leave _ next, w => next.run w

/-- A task while it holds a gate. -/
def holding (gate : Gate) (body : Routine W α) : Routine W α :=
  .enter gate (body.bind fun a => .leave gate (.done a))

theorem run_bind (r : Routine W α) (f : α → Routine W β) (w : W) :
    (r.bind f).run w = (f (r.run w).1).run (r.run w).2 := by
  induction r generalizing w with
  | done a => rfl
  | step change next ih => exact ih _ _
  | enter gate next ih => exact ih w
  | leave gate next ih => exact ih w

theorem run_holding (gate : Gate) (body : Routine W α) (w : W) :
    (holding gate body).run w = body.run w := by
  simp [holding, run, run_bind]

end Routine

/-- A task that may fail. -/
abbrev Act (W α : Type) := ExceptT Error (Routine W) α

namespace Act
variable {W α : Type}

def step (change : W → Except Error α × W) : Act W α := .mk (.step change .done)

def read (f : W → α) : Act W α := step fun w => (.ok (f w), w)

def modify (f : W → W) : Act W Unit := step fun w => (.ok (), f w)

def ofExcept (outcome : Except Error α) : Act W α := .mk (.done outcome)

def fail (e : Error) : Act W α := ofExcept (.error e)

/-- The outcome of a task, which as a whole does not fail. -/
def outcome (task : Act W α) : Act W (Except Error α) := .mk (task.run.bind fun r => .done (.ok r))

/-- A task while it holds a gate, which it leaves also when it fails. -/
def holding (gate : Gate) (task : Act W α) : Act W α := .mk (Routine.holding gate task.run)

/-- The outcome of a task that has the world for itself, and the world after it. -/
def start (task : Act W α) (w : W) : Except Error α × W := Routine.run task.run w

end Act
end DataAccess
