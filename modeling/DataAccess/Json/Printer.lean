import DataAccess.Json.Basic
import DataAccess.Number.Shortest

/-! JSON text, without blanks or over indented lines. -/
namespace DataAccess.Json

def hexDigit (n : Nat) : Char := if n < 10 then Char.ofNat (48 + n) else Char.ofNat (87 + n)

/-- Quotes, backslashes and control characters are escaped, all else stands for itself. -/
def escaped (c : Char) : List Char :=
  if c = '"' then ['\\', '"']
  else if c = '\\' then ['\\', '\\']
  else if c = '\n' then ['\\', 'n']
  else if c = '\r' then ['\\', 'r']
  else if c = '\t' then ['\\', 't']
  else if c.toNat = 8 then ['\\', 'b']
  else if c.toNat = 12 then ['\\', 'f']
  else if c.toNat < 32 then ['\\', 'u', '0', '0', hexDigit (c.toNat / 16), hexDigit (c.toNat % 16)]
  else [c]

def quoted (s : String) : List Char := '"' :: s.toList.flatMap escaped ++ ['"']

def Number.chars : Number → List Char
  | .whole i => (if i < 0 then ['-'] else []) ++ Nat.toDigits 10 i.natAbs
  | .float x => x.chars

mutual
def chars : Json → List Char
  | .null => ['n', 'u', 'l', 'l']
  | .bool true => ['t', 'r', 'u', 'e']
  | .bool false => ['f', 'a', 'l', 's', 'e']
  | .number n => n.chars
  | .string s => quoted s
  | .array [] => ['[', ']']
  | .array (x :: xs) => '[' :: chars x ++ itemChars xs
  | .object [] => ['{', '}']
  | .object ((k, x) :: xs) => '{' :: quoted k ++ ':' :: chars x ++ fieldChars xs
termination_by structural j => j

def itemChars : List Json → List Char
  | [] => [']']
  | x :: xs => ',' :: chars x ++ itemChars xs
termination_by structural xs => xs

def fieldChars : List (String × Json) → List Char
  | [] => ['}']
  | (k, x) :: xs => ',' :: quoted k ++ ':' :: chars x ++ fieldChars xs
termination_by structural xs => xs
end

def text (j : Json) : String := String.ofList j.chars

def newLine (depth : Nat) : List Char := '\n' :: List.replicate (2 * depth) ' '

mutual
/-- Each member stands on a line of its own, two blanks deeper than what holds it. -/
def prettyChars (depth : Nat) : Json → List Char
  | .array [] => ['[', ']']
  | .array (x :: xs) =>
    '[' :: newLine (depth + 1) ++ prettyChars (depth + 1) x ++ prettyItems depth xs
  | .object [] => ['{', '}']
  | .object ((k, x) :: xs) =>
    '{' :: newLine (depth + 1) ++ quoted k ++ ':' :: ' ' :: prettyChars (depth + 1) x ++
      prettyFields depth xs
  | j => j.chars
termination_by structural j => j

def prettyItems (depth : Nat) : List Json → List Char
  | [] => newLine depth ++ [']']
  | x :: xs => ',' :: newLine (depth + 1) ++ prettyChars (depth + 1) x ++ prettyItems depth xs
termination_by structural xs => xs

def prettyFields (depth : Nat) : List (String × Json) → List Char
  | [] => newLine depth ++ ['}']
  | (k, x) :: xs =>
    ',' :: newLine (depth + 1) ++ quoted k ++ ':' :: ' ' :: prettyChars (depth + 1) x ++
      prettyFields depth xs
termination_by structural xs => xs
end

def pretty (j : Json) : String := String.ofList (prettyChars 0 j)

end DataAccess.Json
