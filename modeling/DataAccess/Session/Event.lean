import DataAccess.Json.Printer

/-! What a session tells its subscribers. -/
namespace DataAccess

inductive Event where
  | connected
  | disconnected
  | startedTransaction
  | endedTransaction (error : Option String) (committed : Bool)
  | preQuery (sql : String) (params : List Json)
  | query (sql : String) (params : List Json)
  deriving DecidableEq

namespace Event

def name : Event → String
  | connected => "connected"
  | disconnected => "disconnected"
  | startedTransaction => "started_transaction"
  | endedTransaction .. => "ended_transaction"
  | preQuery .. => "pre_query"
  | query .. => "query"

def details : Event → Record
  | endedTransaction error committed =>
    (error.map fun text => ("error", Json.string text)).toList ++ [("committed", .bool committed)]
  | preQuery sql params | query sql params => [("sql", .string sql), ("params", .array params)]
  | _ => []

/-- The event as the session with the given number reports it. -/
def toJson (session : Nat) (e : Event) : Json :=
  .object ([("event", .string e.name), ("session", .ofInt session)] ++ e.details)

/-- Events kept for a subscriber that falls behind. -/
def capacity : Nat := 256

/-- What a subscriber gets that has seen the first `seen` events: how many it has lost, and the
others in order. -/
def received (seen : Nat) (published : List Event) : Nat × List Event :=
  let fresh := published.drop seen
  let lost := fresh.length - capacity
  (lost, fresh.drop lost)

end Event
end DataAccess
