import DataAccess.Proofs.Sql.Piece
import DataAccess.Sql.Statement

/-!
The statement of a query as text with holes. A clause is a row of tokens, in which the text of each
comparison is one token, so that its meaning can be read off under the precedence of SQL.
-/
namespace DataAccess

def document (v : Json) : Sql := [.hole (.string v.text), .text "::jsonb"]

def castTo (v : Json) (t : ColumnType) : Sql := [.hole v, .text ("::" ++ t.name)]

def bindJson (v : Json) (t : ColumnType) : Sql :=
  match v with
  | .string s => castTo (.string s) t
  | v => castTo (.string v.text) t

def bindPlain (v : Json) (t : ColumnType) : Sql :=
  match v with
  | .string s => castTo (.string s) t
  | v => [.hole v]

def bindTyped (v : Json) (t : ColumnType) : Sql :=
  if t.isJson then bindJson v t else
  match t.isArray, v with
  | true, .array items => castTo (.string (ArrayText.ofItems items)) t
  | _, v => if t.isTextual then [.hole (textual v)] else bindPlain v t

def bind (v : Json) : Slot → Sql
  | .jsonPath => document v
  | .textPath => [.hole (textual v)]
  | .typed t => bindTyped v t
  | .unknown => [.hole v]

def containment (negated : Bool) (target : String) (value : Sql) : Sql :=
  if negated then [.text ("NOT (" ++ target ++ " @> ")] ++ value ++ [.text ")"]
  else .text (target ++ " @> ") :: value

def operation (target operator : String) (value : Sql) : Sql :=
  .text (target ++ " " ++ operator ++ " ") :: value

/-- Comparison with any of some values; no values match nothing, but for `$ne` everything. -/
def membership (target : String) (comparer : Comparer) (items : List Json) (slot : Slot) : Sql :=
  if items.isEmpty then [.text (if comparer = .ne then "TRUE" else "FALSE")] else
  let list := Sql.joined ", " (items.map fun v => bind v slot)
  if comparer = .ne then [.text (target ++ " != ALL(ARRAY[")] ++ list ++ [.text "])"]
  else [.text (target ++ " " ++ comparer.sql ++ " ANY(ARRAY[")] ++ list ++ [.text "])"]

def comparison (target : String) (comparer : Comparer) (v : Json) (slot : Slot) : Sql :=
  match v with
  | .array items =>
    if slot.isJson || slot.isArray then operation target comparer.sql (bind v slot)
    else membership target comparer items slot
  | v => operation target comparer.sql (bind v slot)

def element (v : Json) : Sql :=
  if isScalar v then [.text "jsonb_build_array(", .hole v, .text ")"] else document v

def nullTest (target : String) : Comparer → Except Error Sql
  | .eq => .ok [.text (target ++ " IS NULL")]
  | .ne => .ok [.text (target ++ " IS NOT NULL")]
  | comparer => .error (.nullComparison comparer.keyword)

namespace Dialect

def leaf (d : Dialect) (table column : String) (comparer : Comparer) (operand : Operand) :
    Except Error Sql :=
  let target := d.naming.column column
  match operand with
  | .column other =>
    let value := Sql.text (d.naming.column other)
    if comparer = .notContains then .ok (containment true target value)
    else .ok (operation target comparer.sql value)
  | .value v =>
    if v.isNull then nullTest target comparer else
    match comparer with
    | .contains => .ok (containment false target (document v))
    | .notContains => .ok (containment true target (document v))
    | .arrayContains => .ok (containment false target (element v))
    | comparer => .ok (comparison target comparer v (d.slot table column))

end Dialect

inductive ClauseToken where
  | atom (sql : Sql)
  | constant (b : Bool)
  | opening
  | closing
  | operator (o : Operator)
  deriving DecidableEq

abbrev Clause := List ClauseToken

def ClauseToken.sql : ClauseToken → Sql
  | .atom s => s
  | .constant true => [.text "TRUE"]
  | .constant false => [.text "FALSE"]
  | .opening => [.text "("]
  | .closing => [.text ")"]
  | .operator o => [.text (" " ++ o.sql ++ " ")]

namespace Clause

def sql (c : Clause) : Sql := c.flatMap ClauseToken.sql

def joined (o : Operator) : List Clause → Clause
  | [] => []
  | [part] => part
  | part :: rest => part ++ .operator o :: joined o rest

def enclosed (o : Operator) (parts : List Clause) : Clause :=
  .opening :: joined o parts ++ [.closing]

theorem sql_append (a b : Clause) : sql (a ++ b) = sql a ++ sql b := List.flatMap_append

theorem sql_joined (o : Operator) (parts : List Clause) :
    sql (joined o parts) = Sql.joined (" " ++ o.sql ++ " ") (parts.map sql) := by
  induction parts using joined.induct with
  | case1 => rfl
  | case2 p => rfl
  | case3 p parts hne ih =>
    cases parts with
    | nil => exact (hne rfl).elim
    | cons q parts =>
      rw [joined, sql_append]
      · simp only [List.map_cons, Sql.joined, List.append_assoc] at ih ⊢
        rw [← ih]
        rfl
      · exact hne

/-- A group inside a clause: empty, it is the constant that its operator leaves unchanged. -/
def nested (o : Operator) : List Clause → Clause
  | [] => [.constant (o = .and)]
  | parts => enclosed o parts

/-- The clause of terms that hold together, if there are any. -/
def top : List Clause → Option Clause
  | [] => none
  | [part] => some part
  | parts => some (enclosed .and parts)

mutual
def ofCondition (d : Dialect) (table : String) : Condition → Except Error Clause
  | .leaf column comparer operand => (d.leaf table column comparer operand).map fun s => [.atom s]
  | .group o children => (ofConditions d table children).map (nested o)
termination_by structural c => c

def ofConditions (d : Dialect) (table : String) : List Condition → Except Error (List Clause)
  | [] => .ok []
  | c :: rest => do
    let part ← ofCondition d table c
    return part :: (← ofConditions d table rest)
termination_by structural cs => cs
end

def ofTerms (d : Dialect) (table : String) (terms : List Condition) :
    Except Error (Option Clause) :=
  (ofConditions d table terms).map top

end Clause

namespace Dialect

def guarded (d : Dialect) (word table : String) (terms : List Condition) : Except Error Sql := do
  match ← Clause.ofTerms d table terms with
  | none => return []
  | some c => return .text (" " ++ word ++ " ") :: c.sql

def returning (d : Dialect) (spec : Spec) : Sql :=
  .text " RETURNING " :: Sql.listed (d.keys spec.select)

def joinCondition (d : Dialect) (table : String) (join : Join) : Except Error Sql := do
  match join.conditions with
  | none =>
    let key := fun k : Option String => k.getD d.primaryKey
    return [.text (d.naming.joinKey (d.naming.storageName table) (key join.localKey) ++ " = " ++
      d.naming.joinKey (d.naming.storageName join.table) (key join.foreignKey))]
  | some terms =>
    match ← Clause.ofTerms d join.table terms with
    | none => .error (.invalidJoin (.noConditions join.table))
    | some c => return c.sql

def join (d : Dialect) (table : String) (join : Join) : Except Error Sql := do
  if isBlankText join.table then .error (.invalidJoin .emptyTable) else
  let head := " " ++ join.required.keyword ++ " " ++ d.naming.storageName join.table
  if join.required = .none then return [.text head]
  else return .text (head ++ " ON ") :: (← d.joinCondition table join)

def joins (d : Dialect) (table : String) : List Join → Except Error Sql
  | [] => .ok []
  | j :: rest => do
    let clause ← d.join table j
    return clause ++ (← d.joins table rest)

/-- Tables, joins and filters: the part of a select that decides which rows there are. -/
def source (d : Dialect) (spec : Spec) : Except Error Sql := do
  let joins ← d.joins spec.table spec.joins
  let filter ← d.guarded "WHERE" spec.table spec.conditions
  return .text (" FROM " ++ d.naming.storageName spec.table) :: joins ++ filter

def commaNames (word : String) (names : List String) : Sql :=
  if names.isEmpty then [] else .text (" " ++ word ++ " ") :: Sql.listed names

def limits (spec : Spec) : Sql :=
  let (offset, limit) := match spec.window with
    | some w => (some w.offset, some w.limit)
    | none => (spec.offset, spec.limit)
  (match limit with
    | some n => [.text (" LIMIT " ++ toString n.toNat)]
    | none => []) ++
  match offset with
    | some n => if 0 < n then [.text (" OFFSET " ++ toString n.toNat)] else []
    | none => []

def select (d : Dialect) (spec : Spec) : Except Error Sql := do
  let source ← d.source spec
  let having ← d.guarded "HAVING" spec.table spec.having
  return .text "SELECT " :: Sql.listed (d.selectList spec) ++ source ++
    commaNames "GROUP BY" (spec.groupBy.map d.naming.column) ++ having ++
    commaNames "ORDER BY" (spec.sort.map d.naming.sortKey) ++ limits spec

def assigned (d : Dialect) (table key : String) (v : Json) : Sql :=
  if v.isNull then [.text "NULL"] else bind v (d.slot table key)

def assignment (d : Dialect) (table key : String) (v : Json) : Sql :=
  .text (d.naming.storageName key ++ " = ") ::
    match rawText? v with
    | some raw => [.text raw]
    | none => d.assigned table key v

def assignments (d : Dialect) (table : String) (values : Record) : Sql :=
  Sql.joined ", " (values.map fun e => d.assignment table e.1 e.2)

def onConflict (d : Dialect) (table : String) (upsert : Upsert) : Except Error Sql :=
  let target : Sql :=
    if upsert.columns.isEmpty then []
    else .text " (" :: Sql.listed (upsert.columns.map d.naming.storageName) ++ [.text ")"]
  if upsert.columns.isEmpty && upsert.action ≠ .nothing then .error (.invalidValues .noTarget) else
  let update := fun assignments : Sql =>
    .text " ON CONFLICT" :: target ++ .text " DO UPDATE SET " :: assignments
  match upsert.action with
  | .nothing => .ok (.text " ON CONFLICT" :: target ++ [.text " DO NOTHING"])
  | .update (.object (e :: rest)) => .ok (update (d.assignments table (e :: rest)))
  | .update v => .error (.invalidValues (.noReplacement v))
  | .merge [] => .error (.invalidValues .noMergedColumn)
  | .merge columns => .ok (update (Sql.listed (columns.map d.merged)))

def inserted (d : Dialect) (spec : Spec) : Sql :=
  let head := "INSERT INTO " ++ d.naming.storageName spec.table
  if spec.values.isEmpty then [.text (head ++ " DEFAULT VALUES")] else
  .text (head ++ " (") :: Sql.listed (spec.values.map fun e => d.naming.storageName e.1) ++
    .text ") VALUES (" ::
      Sql.joined ", " (spec.values.map fun e => d.assigned spec.table e.1 e.2) ++ [.text ")"]

def insert (d : Dialect) (spec : Spec) : Except Error Sql := do
  let conflict ← match spec.upsert with
    | some upsert => d.onConflict spec.table upsert
    | none => .ok []
  return d.inserted spec ++ conflict ++ d.returning spec

def update (d : Dialect) (spec : Spec) : Except Error Sql := do
  if spec.values.isEmpty then .error (.invalidValues .noAssignment) else
  let filter ← d.guarded "WHERE" spec.table spec.conditions
  return .text ("UPDATE " ++ d.naming.storageName spec.table ++ " SET ") ::
    d.assignments spec.table spec.values ++ filter ++ d.returning spec

def delete (d : Dialect) (spec : Spec) : Except Error Sql := do
  let filter ← d.guarded "WHERE" spec.table spec.conditions
  return .text ("DELETE FROM " ++ d.naming.storageName spec.table) :: filter

def statement (d : Dialect) (spec : Spec) : Except Error Sql :=
  match spec.command with
  | .select => d.select spec
  | .insert => d.insert spec
  | .update => d.update spec
  | .delete => d.delete spec

end Dialect
end DataAccess
