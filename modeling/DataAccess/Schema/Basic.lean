import DataAccess.Json.Basic

/-! Column types of tables. -/
namespace DataAccess

/-- The type of a column by its short name, such as `int4` or `_text`. -/
structure ColumnType where
  name : String
  deriving DecidableEq, Repr

namespace ColumnType

def isJson (t : ColumnType) : Bool := ["json", "jsonb"].contains t.name

def isTextual (t : ColumnType) : Bool :=
  ["text", "varchar", "bpchar", "char", "name", "citext"].contains t.name

/-- An array is named after its element with an underscore in front. -/
def isArray (t : ColumnType) : Bool := t.name.toList.head? = some '_'

end ColumnType

/-- Column types by storage name. -/
abbrev TableSchema := List (String × ColumnType)

/-- Tables by storage name. -/
abbrev Schema := List (String × TableSchema)

def TableSchema.ofRow? (row : Record) : Option (String × ColumnType) := do
  let name ← (← Assoc.get? row "column_name").text?
  let type ← (← Assoc.get? row "udt_name").text?
  return (name, ⟨type⟩)

/-- Rows without a name or a type are skipped; of a column named twice the last type counts. -/
def TableSchema.ofRows (rows : List Record) : TableSchema :=
  Assoc.ofList (rows.filterMap ofRow?)

def Schema.column? (s : Schema) (table column : String) : Option ColumnType := do
  Assoc.get? (← Assoc.get? s table) column

end DataAccess
