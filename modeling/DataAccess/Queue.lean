/-! A queue that gives its state to one task at a time, in the order in which they ask. -/
namespace DataAccess

structure Queue (σ : Type) where
  name : String
  state : σ
  /-- Tasks that have had their turn. -/
  completed : Nat := 0

namespace Queue
variable {σ α : Type}

/-- The turn of one task. -/
def serve (q : Queue σ) (task : σ → α × σ) : α × Queue σ :=
  let (a, state) := task q.state
  (a, { q with state, completed := q.completed + 1 })

/-- The turns of tasks that ask one after the other. -/
def serveAll (q : Queue σ) : List (σ → α × σ) → List α × Queue σ
  | [] => ([], q)
  | task :: rest =>
    let (a, q) := q.serve task
    let (as, q) := q.serveAll rest
    (a :: as, q)

end Queue
end DataAccess
