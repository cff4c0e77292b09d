import DataAccess.Sql.ArrayText
import DataAccess.Sql.Compiler
import DataAccess.Sql.Reference
import DataAccess.Schema.Basic

/-! How a value is bound against a column. -/
namespace DataAccess
open Text

/-- What is known of the column that a value is bound against. -/
inductive Slot where
  | unknown
  | typed (type : ColumnType)
  /-- The column is a JSON document inside another one. -/
  | jsonPath
  /-- The column is the text of a part of a JSON document. -/
  | textPath
  deriving DecidableEq, Repr

namespace Slot

def isJson : Slot → Bool
  | typed t => t.isJson
  | jsonPath => true
  | _ => false

def isArray : Slot → Bool
  | typed t => t.isArray
  | _ => false

end Slot

/-- Naming rules, the default key of joins, and the known column types. -/
structure Dialect where
  naming : Naming
  primaryKey : String
  schema : Schema

namespace Dialect

/-- The table and the column that a name without marks means. -/
def target (d : Dialect) (table : String) (column : List Char) : String × String :=
  match cutLast '.' column with
  | some (qualifier, name) =>
    (String.ofList (d.naming.storageChars qualifier), String.ofList (d.naming.segment name))
  | none => (d.naming.storageName table, String.ofList (d.naming.segment column))

def pathSlot (s : List Char) : Slot :=
  match ((arrowParts s).getLast?.getD []).head? with
  | some '>' => .textPath
  | _ => .jsonPath

def slot (d : Dialect) (table column : String) : Slot :=
  let s := column.toList
  if (unmarked ':' s).isSome then .unknown else
  let s := (unmarked '!' s).getD s
  if Naming.isPath s then pathSlot s else
  let (table, column) := d.target table s
  match d.schema.column? table column with
  | some t => .typed t
  | none => .unknown

end Dialect

/-- Numbers and truth values compared with text become text. -/
def textual : Json → Json
  | .number n => .string (Json.number n).text
  | .bool b => .string (Json.bool b).text
  | v => v

namespace Compiler

def document (v : Json) : Compiler String := do return (← push (.string v.text)) ++ "::jsonb"

def cast (v : Json) (t : ColumnType) : Compiler String := do return (← push v) ++ "::" ++ t.name

/-- A document is bound as text; text is taken to be a document already. -/
def bindJson (v : Json) (t : ColumnType) : Compiler String :=
  match v with
  | .string s => cast (.string s) t
  | v => cast (.string v.text) t

def bindPlain (v : Json) (t : ColumnType) : Compiler String :=
  match v with
  | .string s => cast (.string s) t
  | v => push v

def bindTyped (v : Json) (t : ColumnType) : Compiler String :=
  if t.isJson then bindJson v t else
  match t.isArray, v with
  | true, .array items => cast (.string (ArrayText.ofItems items)) t
  | _, v => if t.isTextual then push (textual v) else bindPlain v t

def bind (v : Json) : Slot → Compiler String
  | .jsonPath => document v
  | .textPath => push (textual v)
  | .typed t => bindTyped v t
  | .unknown => push v

end Compiler
end DataAccess
