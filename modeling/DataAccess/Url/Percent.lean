import DataAccess.Number.Digits

/-! Text in which a percent sign and two hexadecimal digits stand for a byte. -/
namespace DataAccess.Url

/-- The bytes of a text; a percent sign without its digits stands for itself. -/
def bytes : List Char → List UInt8
  | [] => []
  | '%' :: a :: b :: rest =>
    match Digits.value? a, Digits.value? b with
    | some high, some low => UInt8.ofNat (high * 16 + low) :: bytes rest
    | _, _ => 37 :: bytes (a :: b :: rest)
  | c :: rest => String.utf8EncodeChar c ++ bytes rest

/-- The text that the bytes spell in UTF-8, if they do. -/
def decoded? (s : List Char) : Option (List Char) :=
  (String.fromUTF8? ⟨(bytes s).toArray⟩).map String.toList

/-- The part of a query, in which a plus stands for a blank. -/
def decodedField? (s : List Char) : Option (List Char) :=
  decoded? (s.map fun c => if c = '+' then ' ' else c)

end DataAccess.Url
