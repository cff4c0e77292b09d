import DataAccess.Casing
import DataAccess.Duration
import DataAccess.Error

/-! Settings of a session and of the pool it connects through. -/
namespace DataAccess

/-- Transaction isolation level. -/
inductive Isolation where
  | readCommitted | repeatableRead | serializable
  deriving DecidableEq, Repr, Inhabited

namespace Isolation

def name : Isolation → String
  | readCommitted => "read_committed"
  | repeatableRead => "repeatable_read"
  | serializable => "serializable"

/-- Two of the levels have a second spelling. -/
def ofName? (s : String) : Option Isolation :=
  if s == "read_committed" || s == "readCommitted" then some readCommitted
  else if s == "repeatable_read" || s == "repeatableRead" then some repeatableRead
  else if s == "serializable" then some serializable
  else none

/-- The statement that follows BEGIN; the default level needs none. -/
def statement : Isolation → Option String
  | readCommitted => none
  | repeatableRead => some "SET TRANSACTION ISOLATION LEVEL REPEATABLE READ"
  | serializable => some "SET TRANSACTION ISOLATION LEVEL SERIALIZABLE"

end Isolation

/-- How often a session tries to connect, and the pause between two tries. -/
structure Retry where
  count : Nat := 1
  delay : Duration := Duration.zero
  deriving DecidableEq, Repr

/-- A count of zero still tries once. -/
def Retry.attempts (r : Retry) : Nat := max r.count 1

structure PoolSettings where
  databaseUrl : Option String := none
  maxConnections : Nat := 5
  deriving DecidableEq, Repr

structure Config where
  naming : Naming := {}
  primaryKey : String := "id"
  isolation : Isolation := .readCommitted
  /-- Every statement runs in a transaction. -/
  alwaysTransact : Bool := false
  /-- Without it every transaction ends in ROLLBACK. -/
  commit : Bool := true
  /-- Null fields of returned rows are dropped. -/
  dropNulls : Bool := true
  retry : Retry := {}
  /-- Column types are looked up before a query is compiled. -/
  introspect : Bool := true
  pool : PoolSettings := {}
  deriving DecidableEq, Repr

namespace Config

/-- The configured address, or else the one in the environment. -/
def databaseUrl (c : Config) (environment : String → Option String) : Except Error String :=
  match c.pool.databaseUrl.filter (· ≠ ""), environment "DATABASE_URL" with
  | some url, _ => .ok url
  | none, some url => .ok url
  | none, none => .error (.config .noDatabase)

def toJson (c : Config) : Json :=
  .object
    [("casing", .object
        [("db", .string c.naming.db.name), ("app", .string c.naming.app.name)]),
     ("default_primary_key", .string c.primaryKey),
     ("transactions", .object
        [("mode", .string c.isolation.name), ("always", .bool c.alwaysTransact)]),
     ("commit", .bool c.commit),
     ("null_is_undefined", .bool c.dropNulls),
     ("connection", .object
        [("retry", .object
          [("count", .ofInt c.retry.count), ("delay", .string c.retry.delay.text)])]),
     ("schema", .object [("introspect", .bool c.introspect)]),
     ("pool", .object
        [("database_url", .ofOption .string c.pool.databaseUrl),
         ("max_connections", .ofInt c.pool.maxConnections)])]

end Config
end DataAccess
