import DataAccess.Session.Basic

/-!
Operations on the connection of a session. Users share one connection: the first to come opens it
and the last to leave gives it back. Transactions nest the same way, so that only the outermost
one is told to the server.
-/
namespace DataAccess

/-- A session that has its turn at the link. -/
structure Scope (σ : Type) where
  session : Session
  wire : Wire σ

namespace Scope
variable {σ : Type} [Link σ]

def connection (s : Scope σ) : Connection := s.session.connection

def withConnection (s : Scope σ) (c : Connection) : Scope σ :=
  { s with session := { s.session with connection := c } }

def publish (s : Scope σ) (e : Event) : Scope σ := { s with session := s.session.publish e }

/-- The link has changed to `link` in answer to `call`. -/
def answered (s : Scope σ) (link : σ) (call : Call) : Scope σ :=
  { s with wire := { link, calls := s.wire.calls ++ [call] } }

/-- One try to connect, which gives the number of the new connection. -/
def tryConnect (s : Scope σ) : Except Error Nat × Scope σ :=
  let (answer, link) := Link.connect s.wire.link s.session.database.address
  let s := s.answered link (.connect s.session.number answer.isOk)
  (answer.map fun _ => s.wire.opened, s)

def pause (s : Scope σ) : Scope σ :=
  { s with wire := s.wire.pause s.session.config.retry.delay }

/-- Tries once and then up to `more` times, with a pause before each new try. -/
def dialUpTo (s : Scope σ) (more : Nat) : Except Error Nat × Scope σ :=
  match more with
  | 0 =>
    match s.tryConnect with
    | (.ok client, s) => (.ok client, s)
    | (.error e, s) => (.error (.connect s.session.config.retry.attempts (.error e)), s)
  | more + 1 =>
    match s.tryConnect with
    | (.ok client, s) => (.ok client, s)
    | (.error _, s) => s.pause.dialUpTo more

def dial (s : Scope σ) : Except Error Nat × Scope σ :=
  s.dialUpTo (s.session.config.retry.attempts - 1)

/-- One more user of the connection. -/
def retain (s : Scope σ) : Except Error Unit × Scope σ :=
  let c := s.connection
  if 0 < c.count then (.ok (), s.withConnection { c with count := c.count + 1 }) else
  match s.dial with
  | (.ok client, s) =>
    (.ok (), (s.withConnection { c with count := 1, client := some client }).publish .connected)
  | (.error e, s) => (.error e, s)

/-- Gives the connection back. -/
def disconnect (s : Scope σ) : Scope σ :=
  let s :=
    match s.connection.client with
    | some client =>
      s.answered (Link.release s.wire.link client) (.release s.session.number client)
    | none => s
  (s.withConnection { s.connection with count := 0, client := none }).publish .disconnected

/-- One user less. Open transactions keep their own share of the connection. -/
def release (s : Scope σ) : Except Error Unit × Scope σ :=
  let c := s.connection
  if c.count ≤ c.depth then (.error (.notRetained s.session.number), s)
  else if c.count = 1 then (.ok (), s.disconnect)
  else (.ok (), s.withConnection { c with count := c.count - 1 })

/-- One statement on the open connection. -/
def statement (s : Scope σ) (sql : String) (params : List Json) :
    Except Error (List Record) × Scope σ :=
  match s.connection.client with
  | none => (.error (.notConnected s.session.number), s)
  | some client =>
    let (answer, link) := Link.query s.wire.link client sql params
    let s := s.answered link (.query s.session.number client sql params answer.isOk)
    (answer, { s with session := s.session.record ⟨sql, params, answer.isOk⟩ })

/-- A statement whose rows are of no use. -/
def command (s : Scope σ) (sql : String) : Except Error Unit × Scope σ :=
  let (answer, s) := s.statement sql []
  (answer.map fun _ => (), s)

/-- Opens a transaction on the server; a failed isolation statement takes it back. -/
def openTransaction (s : Scope σ) : Except Error Unit × Scope σ :=
  match s.command "BEGIN" with
  | (.error e, s) => (.error e, s)
  | (.ok (), s) =>
    match s.session.config.isolation.statement with
    | none => (.ok (), s)
    | some isolation =>
      match s.command isolation with
      | (.ok (), s) => (.ok (), s)
      | (.error e, s) => (.error e, (s.command "ROLLBACK").2)

def withDepth (s : Scope σ) (depth : Nat) : Scope σ :=
  s.withConnection { s.connection with depth }

/-- One transaction more around what follows. -/
def begin (s : Scope σ) : Except Error Unit × Scope σ :=
  match s.retain with
  | (.error e, s) => (.error e, s)
  | (.ok (), s) =>
    if 0 < s.connection.depth then (.ok (), s.withDepth (s.connection.depth + 1)) else
    match s.openTransaction with
    | (.ok (), s) => (.ok (), (s.withDepth 1).publish .startedTransaction)
    | (.error e, s) => (.error e, s.release.2)

/-- Tells the server how the outermost transaction ends. -/
def endOutermost (s : Scope σ) (failure : Option Error) : Except Error Unit × Scope σ :=
  let commit := failure.isNone && s.session.config.commit
  let (outcome, s) := s.command (if commit then "COMMIT" else "ROLLBACK")
  (outcome, s.publish (.endedTransaction (failure.map Error.message) (commit && outcome.isOk)))

/-- The first of two failures. -/
def both (first second : Except Error Unit) : Except Error Unit :=
  match first with
  | .ok () => second
  | .error e => .error e

/-- One transaction less; the outermost one is kept if nothing failed and changes are kept at
all. -/
def finish (s : Scope σ) (failure : Option Error) : Except Error Unit × Scope σ :=
  match s.connection.depth with
  | 0 => (.error (.noTransaction s.session.number), s)
  | depth + 1 =>
    let s := s.withDepth depth
    let (outcome, s) := if depth = 0 then s.endOutermost failure else (.ok (), s)
    let (released, s) := s.release
    (both outcome released, s)

/-- Takes back an open transaction and gives up the connection for all its users. -/
def close (s : Scope σ) : Except Error Unit × Scope σ :=
  let (outcome, s) :=
    if 0 < s.connection.depth then
      let (outcome, s) := (s.withDepth 0).command "ROLLBACK"
      (outcome, s.publish (.endedTransaction (some "session closed") false))
    else (.ok (), s)
  (outcome, if 0 < s.connection.count then s.disconnect else s)

end Scope
end DataAccess
