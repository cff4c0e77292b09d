import DataAccess.Sql.Statement

/-!
Queries that are put together step by step. A step that is refused leaves the query as it is; the
first refusal is kept, and whoever wants to run the query gets it.
-/
namespace DataAccess
open Text

/-- One step. -/
inductive Edit where
  | select (keys : List String)
  | filter (conditions : Json)
  | filterBy (condition : Condition)
  | join (join : Join)
  | joinValue (join : Json)
  | sorted (keys : List String)
  | groupBy (keys : List String)
  | having (conditions : Json)
  | offsetBy (offset : UInt64)
  | limitTo (limit : UInt64)
  | paginated (window : Window)
  | onConflict (upsert : Upsert)
  | insert (values : Json)
  | update (values : Json)
  | delete
  | first
  | firstField (key : String)

namespace Edit

/-- A command on one row, which is returned. -/
def assign (s : Spec) (command : Command) : Json → Except Error Spec
  | .object values => .ok { s with command, first := .row, values }
  | .null =>
    if command = .insert then .ok { s with command, first := .row }
    else .error (.invalidValues (.notColumns .null))
  | v => .error (.invalidValues (.notColumns v))

def apply (s : Spec) : Edit → Except Error Spec
  | select keys => .ok { s with select := s.select ++ keys }
  | filter conditions => do
    return { s with conditions := s.conditions ++ (← Condition.parse conditions) }
  | filterBy condition => .ok { s with conditions := s.conditions ++ [condition] }
  | join j => .ok { s with joins := s.joins ++ [j] }
  | joinValue v => do return { s with joins := s.joins ++ [← Join.ofJson v] }
  | sorted keys => .ok { s with sort := keys }
  | groupBy keys => .ok { s with groupBy := keys }
  | having conditions => do return { s with having := s.having ++ (← Condition.parse conditions) }
  | offsetBy offset => .ok { s with offset := some offset }
  | limitTo limit => .ok { s with limit := some limit }
  | paginated window => .ok { s with window := some window }
  | onConflict upsert => .ok { s with upsert := some upsert }
  | insert values => assign s .insert values
  | update values => assign s .update values
  | delete => .ok { s with command := .delete }
  | first => .ok { s with limit := some 1, first := .row }
  | firstField key =>
    .ok { s with limit := some 1, select := s.select ++ [key], first := .field key }

end Edit

structure Draft where
  spec : Spec
  refusal : Option Error := none

namespace Draft

/-- A query on a table, whose name must not be blank. -/
def start (table : String) : Draft :=
  ⟨{ table }, if isBlankText table then some (.invalidValues .emptyTable) else none⟩

def edit (d : Draft) (e : Edit) : Draft :=
  match e.apply d.spec with
  | .ok spec => { d with spec }
  | .error refusal => { d with refusal := d.refusal.or (some refusal) }

def ofEdits (table : String) (edits : List Edit) : Draft := edits.foldl edit (start table)

/-- The query, if no step was refused. -/
def checked (d : Draft) : Except Error Spec :=
  match d.refusal with
  | some e => .error e
  | none => .ok d.spec

end Draft
end DataAccess
