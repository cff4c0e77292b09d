import DataAccess.Cache.Basic
import DataAccess.Config.Basic
import DataAccess.Link.Basic
import DataAccess.Session.Event

/-! The state of a session. -/
namespace DataAccess

/-- A server together with what is known of its tables, which is filed under a number. -/
structure Database where
  catalogue : Nat
  address : Option Address := none
  deriving DecidableEq, Repr

/-- A statement that was sent, and whether the link accepted it. -/
structure Statement where
  sql : String
  params : List Json
  accepted : Bool
  deriving DecidableEq

/-- How many users share the connection, how many of them have a transaction open, and the open
connection. -/
structure Connection where
  count : Nat := 0
  depth : Nat := 0
  client : Option Nat := none
  deriving DecidableEq, Repr

structure Session where
  number : Nat
  database : Database
  config : Config := {}
  connection : Connection := {}
  history : List Statement := []
  events : List Event := []
  caches : List (String × Cache) := []
  /-- Hits of all its caches. -/
  hits : Nat := 0

namespace Session

def publish (s : Session) (e : Event) : Session := { s with events := s.events ++ [e] }

def record (s : Session) (statement : Statement) : Session :=
  { s with history := s.history ++ [statement] }

def cache (s : Session) (entity : String) : Cache := (Assoc.get? s.caches entity).getD {}

def putCache (s : Session) (entity : String) (c : Cache) : Session :=
  { s with caches := Assoc.put s.caches entity c }

/-- A row under the names of the application. -/
def converted (s : Session) (row : Record) : Record :=
  let kept := if s.config.dropNulls then row.filter fun e => !e.2.isNull else row
  Assoc.ofList (kept.map fun e => (s.config.naming.toApp e.1, e.2))

end Session
end DataAccess
