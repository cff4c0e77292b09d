import DataAccess.Json.Printer

/-! Lists in the input syntax of array columns. -/
namespace DataAccess.ArrayText

/-- Quotes and backslashes inside an element are escaped. -/
def quoted (s : List Char) : List Char :=
  '"' :: s.flatMap (fun c => if c = '\\' || c = '"' then ['\\', c] else [c]) ++ ['"']

mutual
def element : Json → List Char
  | .null => ['N', 'U', 'L', 'L']
  | .array [] => ['\x7b', '\x7d']
  | .array (x :: xs) => '\x7b' :: element x ++ elementsAfter xs
  | .string s => quoted s.toList
  | .object fields => quoted (Json.chars (.object fields))
  | .number n => n.chars
  | .bool b => Json.chars (.bool b)
termination_by structural j => j

def elementsAfter : List Json → List Char
  | [] => ['\x7d']
  | x :: xs => ',' :: element x ++ elementsAfter xs
termination_by structural xs => xs
end

def ofItems (items : List Json) : String := String.ofList (element (.array items))

end DataAccess.ArrayText
