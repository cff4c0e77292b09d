import DataAccess.Filter.Basic
import DataAccess.Sql.Binding

/-! Conditions as a clause. -/
namespace DataAccess

def isScalar : Json → Bool
  | .array _ | .object _ => false
  | _ => true

namespace Compiler

/-- Comparison with any of some values; no values match nothing, but for `$ne` everything. -/
def membership (target : String) (comparer : Comparer) (items : List Json) (slot : Slot) :
    Compiler String := do
  if items.isEmpty then return if comparer = .ne then "TRUE" else "FALSE" else
  let list := ", ".intercalate (← items.mapM fun v => bind v slot)
  if comparer = .ne then return target ++ " != ALL(ARRAY[" ++ list ++ "])"
  else return target ++ " " ++ comparer.sql ++ " ANY(ARRAY[" ++ list ++ "])"

def operation (target : String) (comparer : Comparer) (v : Json) (slot : Slot) :
    Compiler String := do
  return target ++ " " ++ comparer.sql ++ " " ++ (← bind v slot)

def comparison (target : String) (comparer : Comparer) (v : Json) (slot : Slot) :
    Compiler String :=
  match v with
  | .array items =>
    if slot.isJson || slot.isArray then operation target comparer v slot
    else membership target comparer items slot
  | v => operation target comparer v slot

/-- An element is put into a list of its own. -/
def element (v : Json) : Compiler String := do
  if isScalar v then return "jsonb_build_array(" ++ (← push v) ++ ")" else document v

def nullTest (target : String) : Comparer → Compiler String
  | .eq => return target ++ " IS NULL"
  | .ne => return target ++ " IS NOT NULL"
  | comparer => throw (.nullComparison comparer.keyword)

/-- The SQL of one comparison in a query on `table`. -/
def leaf (d : Dialect) (table column : String) (comparer : Comparer) (operand : Operand) :
    Compiler String := do
  let target := d.naming.column column
  match operand with
  | .column other =>
    let other := d.naming.column other
    if comparer = .notContains then return "NOT (" ++ target ++ " @> " ++ other ++ ")"
    else return target ++ " " ++ comparer.sql ++ " " ++ other
  | .value v =>
    if v.isNull then nullTest target comparer else
    match comparer with
    | .contains => return target ++ " @> " ++ (← document v)
    | .notContains => return "NOT (" ++ target ++ " @> " ++ (← document v) ++ ")"
    | .arrayContains => return target ++ " @> " ++ (← element v)
    | comparer => comparison target comparer v (d.slot table column)

/-- The parts of a group between parentheses. Inside another group an empty one is the constant
that its operator leaves unchanged, at the top it is left out, and a single part stands alone. -/
def grouped (o : Operator) (nested : Bool) : List String → Option String
  | [] => if nested then some (if o = .and then "TRUE" else "FALSE") else none
  | [part] => some (if nested then "(" ++ part ++ ")" else part)
  | parts => some ("(" ++ (" " ++ o.sql ++ " ").intercalate parts ++ ")")

mutual
def part (d : Dialect) (table : String) : Condition → Compiler (Option String)
  | .leaf column comparer operand => some <$> leaf d table column comparer operand
  | .group o children => grouped o true <$> parts d table children
termination_by structural c => c

def parts (d : Dialect) (table : String) : List Condition → Compiler (List String)
  | [] => return []
  | c :: rest => do
    let first ← part d table c
    return first.toList ++ (← parts d table rest)
termination_by structural cs => cs
end

/-- The clause of terms that hold together, if there are any. -/
def conditions (d : Dialect) (table : String) (terms : List Condition) :
    Compiler (Option String) :=
  grouped .and false <$> parts d table terms

end Compiler
end DataAccess
