import DataAccess.Json.Printer

/-! Reading JSON of a known shape, and what is told where it has another one. -/
namespace DataAccess.Json

/-- Why JSON does not have the shape that is wanted. -/
inductive ShapeFault where
  | wrongType (got : Json) (expected : String)
  | wrongValue (got : Json) (expected : String)
  | wrongLength (got : Nat) (expected : String)
  | unknownVariant (got : String) (expected : List String)
  | missingField (name : String)
  deriving DecidableEq

/-- A character as it is shown between quotes; past ASCII all are shown as they are. -/
def shown (c : Char) : List Char :=
  if c.toNat = 0 then ['\\', '0']
  else if c = '"' || c = '\\' || c = '\n' || c = '\r' || c = '\t' then escaped c
  else if c.toNat < 32 || c.toNat = 127 then
    ['\\', 'u', '{'] ++ Nat.toDigits 16 c.toNat ++ ['}']
  else [c]

/-- What there is where something else is wanted. -/
def described : Json → String
  | .null => "null"
  | .bool b => "boolean `" ++ toString b ++ "`"
  | .number (.whole i) => "integer `" ++ toString i ++ "`"
  | .number (.float x) => "floating point `" ++ String.ofList x.chars ++ "`"
  | .string s => "string \"" ++ String.ofList (s.toList.flatMap shown) ++ "\""
  | .array _ => "sequence"
  | .object _ => "map"

def ShapeFault.text : ShapeFault → String
  | wrongType got expected => "invalid type: " ++ got.described ++ ", expected " ++ expected
  | wrongValue got expected => "invalid value: " ++ got.described ++ ", expected " ++ expected
  | wrongLength got expected => "invalid length " ++ toString got ++ ", expected " ++ expected
  | unknownVariant got expected =>
    "unknown variant `" ++ got ++ "`, expected one of " ++
      ", ".intercalate (expected.map fun name => "`" ++ name ++ "`")
  | missingField name => "missing field `" ++ name ++ "`"

def readText : Json → Except ShapeFault String
  | .string s => .ok s
  | v => .error (.wrongType v "a string")

/-- Text, or nothing for a null. -/
def readOptionalText : Json → Except ShapeFault (Option String)
  | .null => .ok none
  | v => v.readText.map some

end DataAccess.Json
