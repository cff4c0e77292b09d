import DataAccess.Output
import DataAccess.Query.Join

/-! What a query asks for, before it is written as SQL. -/
namespace DataAccess

inductive Command where
  | select | insert | update | delete
  deriving DecidableEq, Repr

/-- Everything but a select changes the database, and runs in a transaction. -/
def Command.isMutation : Command → Bool
  | .select => false
  | _ => true

/-- What an insert does with a row that is there already. -/
inductive OnConflict where
  | nothing
  | update (values : Json)
  | merge (columns : List String)
  deriving DecidableEq

structure Upsert where
  columns : List String
  action : OnConflict
  deriving DecidableEq

structure Spec where
  table : String
  command : Command := .select
  select : List String := []
  conditions : List Condition := []
  joins : List Join := []
  sort : List String := []
  groupBy : List String := []
  having : List Condition := []
  offset : Option UInt64 := none
  limit : Option UInt64 := none
  window : Option Window := none
  upsert : Option Upsert := none
  values : Record := []
  first : First := .all

/-- The main table and the joined ones. -/
def Spec.tables (s : Spec) : List String := s.table :: s.joins.map (·.table)

end DataAccess
