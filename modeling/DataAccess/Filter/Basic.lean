import DataAccess.Json.Basic

/-! Condition trees: comparisons of columns, joined by AND and OR. -/
namespace DataAccess

inductive Comparer where
  | eq | ne | lt | lte | gt | gte | regexp | contains | notContains | arrayContains
  deriving DecidableEq, Repr

namespace Comparer

def all : List Comparer :=
  [eq, ne, lt, lte, gt, gte, regexp, contains, notContains, arrayContains]

def keyword : Comparer → String
  | eq => "$eq"
  | ne => "$ne"
  | lt => "$lt"
  | lte => "$lte"
  | gt => "$gt"
  | gte => "$gte"
  | regexp => "$regexp"
  | contains => "$contains"
  | notContains => "$notContains"
  | arrayContains => "$arrayContains"

def ofKeyword? (s : String) : Option Comparer := all.find? fun c => c.keyword == s

/-- The operator between the column and the value. -/
def sql : Comparer → String
  | eq => "="
  | ne => "!="
  | lt => "<"
  | lte => "<="
  | gt => ">"
  | gte => ">="
  | regexp => "~*"
  | contains | notContains | arrayContains => "@>"

/-- Compares JSON documents rather than scalars. -/
def isJson : Comparer → Bool
  | contains | notContains | arrayContains => true
  | _ => false

end Comparer

inductive Operator where
  | and | or
  deriving DecidableEq, Repr

namespace Operator

def ofKeyword? (s : String) : Option Operator :=
  if s == "$and" then some and else if s == "$or" then some or else none

def sql : Operator → String
  | and => "AND"
  | or => "OR"

end Operator

/-- Right side of a comparison: a bound value or another column. -/
inductive Operand where
  | value (v : Json)
  | column (name : String)
  deriving DecidableEq

inductive Condition where
  | leaf (column : String) (comparer : Comparer) (operand : Operand)
  | group (operator : Operator) (children : List Condition)

/-- One comparison of a tree. -/
structure Comparison where
  column : String
  comparer : Comparer
  operand : Operand
  deriving DecidableEq

namespace Condition

mutual
/-- The comparisons from left to right. -/
def leaves : Condition → List Comparison
  | .leaf column comparer operand => [⟨column, comparer, operand⟩]
  | .group _ children => leavesOf children
termination_by structural c => c

def leavesOf : List Condition → List Comparison
  | [] => []
  | c :: rest => leaves c ++ leavesOf rest
termination_by structural cs => cs
end

/-- Several terms under AND; a single term stands alone. -/
def conjunction : List Condition → Option Condition
  | [] => none
  | [term] => some term
  | terms => some (.group .and terms)

end Condition
end DataAccess
