import DataAccess.Json.Basic

/-!
Values of a TOML document. Points in time and floating numbers are kept only as such. Settings may
also be written as JSON, whose null no document holds.
-/
namespace DataAccess

inductive Toml where
  | null
  | string (s : String)
  | integer (i : Int)
  | float
  | boolean (b : Bool)
  | moment
  | array (items : List Toml)
  | table (entries : List (String × Toml))
  deriving Repr, Inhabited

namespace Toml

mutual
/-- The same settings written as JSON. -/
def ofJson : Json → Toml
  | .null => .null
  | .bool b => .boolean b
  | .number (.whole i) => .integer i
  | .number (.float _) => .float
  | .string s => .string s
  | .array items => .array (ofItems items)
  | .object fields => .table (ofFields fields)
termination_by structural j => j

def ofItems : List Json → List Toml
  | [] => []
  | x :: xs => ofJson x :: ofItems xs
termination_by structural xs => xs

def ofFields : List (String × Json) → List (String × Toml)
  | [] => []
  | (k, x) :: xs => (k, ofJson x) :: ofFields xs
termination_by structural xs => xs
end

end Toml
end DataAccess
