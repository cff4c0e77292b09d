import DataAccess.Filter.Basic
import DataAccess.Error

/-!
Filters written as JSON. Objects and lists mean AND, `$and` and `$or` group objects or lists, a
comparer stands under a column or over several columns, and a plain value is compared by `$eq`.
-/
namespace DataAccess.Condition

def isKeyword (s : String) : Bool := s.toList.head? = some '$'

/-- What the value of a comparison stands for: itself, or a column of that name. -/
inductive Reading where
  | values | columns
  deriving DecidableEq

def comparison (reading : Reading) (column : String) (comparer : Comparer) (v : Json) :
    Except Error Condition :=
  if column = "" then .error (.invalidCondition .emptyColumn) else
  match reading, v with
  | .values, v => .ok (.leaf column comparer (.value v))
  | .columns, .string other => .ok (.leaf column comparer (.column other))
  | .columns, v => .error (.invalidCondition (.notColumn column v))

def comparisons (reading : Reading) (comparer : Comparer) : Record → Except Error (List Condition)
  | [] => .ok []
  | (column, v) :: rest => do
    let c ← comparison reading column comparer v
    return c :: (← comparisons reading comparer rest)

mutual
/-- Conditions on one column. -/
def columnTerm (reading : Reading) (column : String) : Json → Except Error Condition
  | .object fields =>
    if fields.any fun e => isKeyword e.1 then do
      match conjunction (← columnTerms reading column fields) with
      | some c => .ok c
      | none => .error (.invalidCondition (.noComparers column))
    else .error (.invalidCondition (.bareObject column))
  | v => comparison reading column .eq v
termination_by structural v => v

def columnTerms (reading : Reading) (column : String) :
    List (String × Json) → Except Error (List Condition)
  | [] => .ok []
  | (key, v) :: rest => do
    let c ←
      match Comparer.ofKeyword? key, Operator.ofKeyword? key with
      | some comparer, _ => comparison reading column comparer v
      | none, some operator => (columnGroup reading column key v).map (.group operator)
      | none, none =>
        if isKeyword key then .error (.unknownModifier key)
        else .error (.invalidCondition (.strayField key column))
    return c :: (← columnTerms reading column rest)
termination_by structural fields => fields

def columnGroup (reading : Reading) (column key : String) : Json → Except Error (List Condition)
  | .object fields => columnTerms reading column fields
  | .array items => columnItems reading column items
  | v => .error (.invalidCondition (.notGroup key v))
termination_by structural v => v

def columnItems (reading : Reading) (column : String) :
    List Json → Except Error (List Condition)
  | [] => .ok []
  | v :: rest => do
    let c ← columnTerm reading column v
    return c :: (← columnItems reading column rest)
termination_by structural items => items
end

/-- An entry of a filter that is no operator. -/
def entryTerm (reading : Reading) (key : String) (v : Json) : Except Error Condition :=
  match Comparer.ofKeyword? key, v with
  | some comparer, .object fields => do
    match conjunction (← comparisons reading comparer fields) with
    | some c => .ok c
    | none => .error (.invalidCondition (.noColumns key))
  | some _, _ => .error (.invalidCondition (.notColumns key))
  | none, v => if isKeyword key then .error (.unknownModifier key) else columnTerm reading key v

mutual
/-- The terms of a filter; of a list, elements without terms are dropped. -/
def terms (reading : Reading) : Json → Except Error (List Condition)
  | .null => .ok []
  | .object fields => entryTerms reading fields
  | .array items => itemTerms reading items
  | v => .error (.invalidCondition (.notCollection v))
termination_by structural v => v

def entryTerms (reading : Reading) : List (String × Json) → Except Error (List Condition)
  | [] => .ok []
  | (key, v) :: rest => do
    let c ←
      match Operator.ofKeyword? key with
      | some operator => (terms reading v).map (.group operator)
      | none => entryTerm reading key v
    return c :: (← entryTerms reading rest)
termination_by structural fields => fields

def itemTerms (reading : Reading) : List Json → Except Error (List Condition)
  | [] => .ok []
  | v :: rest => do
    let ts ← terms reading v
    let more ← itemTerms reading rest
    return (conjunction ts).toList ++ more
termination_by structural items => items
end

/-- The top-level terms of a filter, which hold together. -/
def parse (filter : Json) : Except Error (List Condition) := terms .values filter

/-- As `parse`, but the values name columns. -/
def parseColumns (filter : Json) : Except Error (List Condition) := terms .columns filter

end DataAccess.Condition
