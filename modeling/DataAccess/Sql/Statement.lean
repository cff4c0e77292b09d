import DataAccess.Config.Basic
import DataAccess.Query.Spec
import DataAccess.Sql.Clause

/-! The statement that answers a query. -/
namespace DataAccess
open Text

def isBlankText (s : String) : Bool := s.toList.all isBlank

namespace Dialect

/-- The keys to return, all columns if there are none. -/
def keys (d : Dialect) (ks : List String) : List String :=
  if ks.isEmpty then ["*"] else ks.map d.naming.selectKey

def selectList (d : Dialect) (spec : Spec) : List String :=
  d.keys spec.select ++
    if spec.window.isSome then ["COUNT(*) OVER() AS total"] else []

/-- What a key of a join is on each side, by default the primary key. -/
def joinKeys (d : Dialect) (table joined : String) (join : Join) : String :=
  d.naming.joinKey table (join.localKey.getD d.primaryKey) ++ " = " ++
    d.naming.joinKey joined (join.foreignKey.getD d.primaryKey)

def rawText? : Json → Option String
  | .string s => (unmarked ':' s.toList).map String.ofList
  | _ => none

def merged (d : Dialect) (column : String) : String :=
  let name := d.naming.storageName column
  name ++ " = EXCLUDED." ++ name

end Dialect

namespace Compiler

/-- ` WORD clause`, or nothing for no conditions. -/
def guarded (d : Dialect) (word table : String) (terms : List Condition) : Compiler String := do
  match ← conditions d table terms with
  | none => return ""
  | some clause => return " " ++ word ++ " " ++ clause

def returning (d : Dialect) (spec : Spec) : String :=
  " RETURNING " ++ ", ".intercalate (d.keys spec.select)

def joinCondition (d : Dialect) (table : String) (join : Join) : Compiler String := do
  match join.conditions with
  | none => return d.joinKeys table (d.naming.storageName join.table) join
  | some terms =>
    match ← conditions d join.table terms with
    | none => throw (.invalidJoin (.noConditions join.table))
    | some clause => return clause

/-- A join to `table`, which is a storage name. -/
def join (d : Dialect) (table : String) (join : Join) : Compiler String := do
  if isBlankText join.table then throw (.invalidJoin .emptyTable) else
  let head := join.required.keyword ++ " " ++ d.naming.storageName join.table
  if join.required = .none then return head
  else return head ++ " ON " ++ (← joinCondition d table join)

def joins (d : Dialect) (table : String) : List Join → Compiler String
  | [] => return ""
  | j :: rest => do
    let clause ← join d table j
    return " " ++ clause ++ (← joins d table rest)

def commaNames (word : String) (names : List String) : String :=
  if names.isEmpty then "" else " " ++ word ++ " " ++ ", ".intercalate names

/-- A window takes the place of offset and limit. -/
def limits (spec : Spec) : String :=
  let (offset, limit) := match spec.window with
    | some w => (some w.offset, some w.limit)
    | none => (spec.offset, spec.limit)
  (match limit with
    | some n => " LIMIT " ++ toString n.toNat
    | none => "") ++
  match offset with
    | some n => if 0 < n then " OFFSET " ++ toString n.toNat else ""
    | none => ""

def select (d : Dialect) (spec : Spec) : Compiler String := do
  let table := d.naming.storageName spec.table
  let joins ← joins d table spec.joins
  let filter ← guarded d "WHERE" spec.table spec.conditions
  let having ← guarded d "HAVING" spec.table spec.having
  return "SELECT " ++ ", ".intercalate (d.selectList spec) ++ " FROM " ++ table ++ joins ++
    filter ++ commaNames "GROUP BY" (spec.groupBy.map d.naming.column) ++ having ++
    commaNames "ORDER BY" (spec.sort.map d.naming.sortKey) ++ limits spec

/-- The value side of an insert or an assignment. -/
def assigned (d : Dialect) (table key : String) (v : Json) : Compiler String :=
  if v.isNull then return "NULL" else bind v (d.slot table key)

/-- Text that begins with a colon is raw SQL. -/
def assignment (d : Dialect) (table key : String) (v : Json) : Compiler String := do
  let value ← match Dialect.rawText? v with
    | some raw => pure raw
    | none => assigned d table key v
  return d.naming.storageName key ++ " = " ++ value

def assignments (d : Dialect) (table : String) (values : Record) : Compiler String := do
  return ", ".intercalate (← values.mapM fun e => assignment d table e.1 e.2)

def onConflict (d : Dialect) (table : String) (upsert : Upsert) : Compiler String := do
  let target :=
    if upsert.columns.isEmpty then ""
    else " (" ++ ", ".intercalate (upsert.columns.map d.naming.storageName) ++ ")"
  if upsert.columns.isEmpty && upsert.action ≠ .nothing then throw (.invalidValues .noTarget) else
  let update := fun assignments => " ON CONFLICT" ++ target ++ " DO UPDATE SET " ++ assignments
  match upsert.action with
  | .nothing => return " ON CONFLICT" ++ target ++ " DO NOTHING"
  | .update (.object (e :: rest)) => return update (← assignments d table (e :: rest))
  | .update v => throw (.invalidValues (.noReplacement v))
  | .merge [] => throw (.invalidValues .noMergedColumn)
  | .merge columns => return update (", ".intercalate (columns.map d.merged))

def inserted (d : Dialect) (spec : Spec) : Compiler String := do
  let head := "INSERT INTO " ++ d.naming.storageName spec.table
  if spec.values.isEmpty then return head ++ " DEFAULT VALUES" else
  let values ← spec.values.mapM fun e => assigned d spec.table e.1 e.2
  return head ++ " (" ++ ", ".intercalate (spec.values.map fun e => d.naming.storageName e.1) ++
    ") VALUES (" ++ ", ".intercalate values ++ ")"

def insert (d : Dialect) (spec : Spec) : Compiler String := do
  let rows ← inserted d spec
  let conflict ← match spec.upsert with
    | some upsert => onConflict d spec.table upsert
    | none => pure ""
  return rows ++ conflict ++ returning d spec

def update (d : Dialect) (spec : Spec) : Compiler String := do
  if spec.values.isEmpty then throw (.invalidValues .noAssignment) else
  let assignments ← assignments d spec.table spec.values
  let filter ← guarded d "WHERE" spec.table spec.conditions
  return "UPDATE " ++ d.naming.storageName spec.table ++ " SET " ++ assignments ++ filter ++
    returning d spec

def delete (d : Dialect) (spec : Spec) : Compiler String := do
  let filter ← guarded d "WHERE" spec.table spec.conditions
  return "DELETE FROM " ++ d.naming.storageName spec.table ++ filter

def statement (d : Dialect) (spec : Spec) : Compiler String :=
  match spec.command with
  | .select => select d spec
  | .insert => insert d spec
  | .update => update d spec
  | .delete => delete d spec

end Compiler

def Config.dialect (c : Config) (schema : Schema) : Dialect := ⟨c.naming, c.primaryKey, schema⟩

/-- The SQL text and the parameters of a query. -/
def compile (spec : Spec) (config : Config) (schema : Schema) : Except Error Compiled := do
  let (sql, params) ← (Compiler.statement (config.dialect schema) spec).run []
  return ⟨sql, params⟩

end DataAccess
