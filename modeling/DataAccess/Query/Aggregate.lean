import DataAccess.Sql.Statement

/-! Queries for one number over the rows that another query is about. -/
namespace DataAccess.Spec

/-- The same rows under a single key, without order and window. -/
def aggregate (s : Spec) (key field : String) : Spec :=
  { s with
    command := .select
    select := [key]
    sort := []
    offset := none
    limit := none
    window := none
    first := .field field }

def qualified (n : Naming) (table key : String) : String :=
  n.storageName table ++ "." ++ n.storageName key

/-- Counts the rows, or those where a key is not null. -/
def counted (s : Spec) (n : Naming) (key : Option String) : Spec :=
  let target := match key with
    | some key => qualified n s.table key
    | none => "*"
  s.aggregate (":COUNT(" ++ target ++ ")::bigint AS count") "count"

def summed (s : Spec) (n : Naming) (key : String) : Spec :=
  s.aggregate (":SUM(" ++ qualified n s.table key ++ ")::float8 AS sum") "sum"

/-- A single row has no window. -/
def unpaged (s : Spec) : Spec := if s.first = .all then s else { s with window := none }

/-- Tables whose column types can be looked up, by storage name. -/
def knownTables (s : Spec) (n : Naming) : List String :=
  (s.tables.filter fun t => !isBlankText t && (Text.unmarked ':' t.toList).isNone).map n.storageName

end DataAccess.Spec
