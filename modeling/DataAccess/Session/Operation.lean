import DataAccess.Output
import DataAccess.Session.World

/-!
What users do with a session. Each operation on the connection is one turn in the queue of the
session; `retained` and `transaction` put two turns around a task.
-/
namespace DataAccess

/-- How a statement is run, and what is wanted of its rows. -/
structure ExecOptions where
  transaction : Bool := false
  first : First := .all
  /-- Rows are returned as the database names them. -/
  raw : Bool := false

/-- The outcome of a task and its closing step: the failure of the task comes first. -/
def settle {α : Type} (outcome : Except Error α) (closing : Except Error Unit) : Except Error α :=
  match outcome, closing with
  | .ok a, .ok () => .ok a
  | .ok _, .error e => .error e
  | .error e, _ => .error e

def failure? {α : Type} : Except Error α → Option Error
  | .ok _ => none
  | .error e => some e

namespace Session
variable {σ α : Type} [Link σ]

/-- The session with the given number. -/
def look (n : Nat) : Act (World σ) Session := .read fun w => w.session n

/-- One turn in the queue of the connection. -/
def turn (n : Nat) (t : Scope σ → Except Error α × Scope σ) : Act (World σ) α :=
  .holding (.connection n) (.step fun w => w.turn n t)

def retain (n : Nat) : Act (World σ) Unit := turn n Scope.retain

def release (n : Nat) : Act (World σ) Unit := turn n Scope.release

def begin (n : Nat) : Act (World σ) Unit := turn n Scope.begin

def finish (n : Nat) (failure : Option Error) : Act (World σ) Unit :=
  turn n fun s => s.finish failure

def close (n : Nat) : Act (World σ) Unit := turn n Scope.close

/-- One statement on the connection in use, with the rows as they come. -/
def statement (n : Nat) (sql : String) (params : List Json) : Act (World σ) (List Record) :=
  turn n fun s => s.statement sql params

/-- Ends a transaction. A failure that is given is raised again if `rethrow` says so. -/
def endTransaction (n : Nat) (failure : Option Error) (rethrow : Bool) : Act (World σ) Unit := do
  let closing ← (finish n failure).outcome
  match failure, rethrow with
  | some e, true => .fail e
  | _, _ => .ofExcept closing

/-- A task between retaining and releasing the connection. -/
def retained (n : Nat) (task : Act (World σ) α) : Act (World σ) α := do
  retain n
  let outcome ← task.outcome
  let closing ← (release n).outcome
  .ofExcept (settle outcome closing)

/-- A task in a transaction, which is taken back if the task fails. -/
def transaction (n : Nat) (task : Act (World σ) α) : Act (World σ) α := do
  begin n
  let outcome ← task.outcome
  let closing ← (finish n (failure? outcome)).outcome
  .ofExcept (settle outcome closing)

def announce (n : Nat) (e : Event) : Act (World σ) Unit := .modify fun w => w.publish n e

/-- A statement between retaining and releasing, or in a transaction of its own. -/
def framed (n : Nat) (transact : Bool) (sql : String) (params : List Json) :
    Act (World σ) (List Record) :=
  if transact then transaction n (statement n sql params) else retained n (statement n sql params)

/-- A statement that finds a connection for itself; it is announced before and told of after,
whether or not it fails. -/
def execWith (n : Nat) (sql : String) (params : List Json) (options : ExecOptions) :
    Act (World σ) Output := do
  let session ← look n
  announce n (.preQuery sql params)
  let outcome ←
    (framed n (options.transaction || session.config.alwaysTransact) sql params).outcome
  announce n (.query sql params)
  let rows ← .ofExcept outcome
  return .shape options.first (if options.raw then rows else rows.map session.converted)

def exec (n : Nat) (sql : String) (params : List Json) : Act (World σ) (List Record) := do
  return (← execWith n sql params {}).intoRows

end Session
end DataAccess
