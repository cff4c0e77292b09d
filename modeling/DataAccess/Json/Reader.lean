import DataAccess.Json.Basic
import DataAccess.Number.Digits

/-!
Reading JSON text. Nesting is bounded, and of an object that repeats a key the last value counts.
-/
namespace DataAccess.Json

/-- Nesting at and past this depth is refused. -/
def depthLimit : Nat := 128

/-- An object may be written as a text: then it has this one key, and the string beside it is the
JSON text of the value that the object stands for. -/
def textKey : String := "$serde_json::private::RawValue"

def isSpace (c : Char) : Bool := c = ' ' || c = '\n' || c = '\t' || c = '\r'

def digitValue (c : Char) : Nat := c.toNat - 48

def wordLimit : Nat := pow2 64

/-- Appends digits while the number fits a word of 64 bits; the count tells how many did. -/
def takeDigits (n : Nat) : List Char → Nat × Nat
  | [] => (n, 0)
  | c :: rest =>
    let m := n * 10 + digitValue c
    if m < wordLimit then
      let (r, k) := takeDigits m rest
      (r, k + 1)
    else (n, 0)

/-- A number as written: sign, digits before and after the point, exponent. -/
structure Numeral where
  negative : Bool
  whole : List Char
  fraction : List Char
  exponent : Option Int

def Numeral.value (n : Numeral) : Option Number :=
  let (digits, kept) := takeDigits 0 n.whole
  let dropped := n.whole.length - kept
  if n.fraction.isEmpty && n.exponent.isNone && dropped = 0 then
    if !n.negative then some (.whole digits)
    else if 0 < digits && digits ≤ pow2 63 then some (.whole (-digits))
    else (Double.scaled true digits 0).map .float
  else
    let (digits, places) := takeDigits digits n.fraction
    (Double.scaled n.negative digits (n.exponent.getD 0 + dropped - places)).map .float

/-- The digits that must follow. -/
def digits? (s : List Char) : Option (List Char × List Char) :=
  let ds := s.takeWhile Char.isDigit
  if ds.isEmpty then none else some (ds, s.dropWhile Char.isDigit)

def fraction? : List Char → Option (List Char × List Char)
  | '.' :: rest => digits? rest
  | s => some ([], s)

def exponent? : List Char → Option (Option Int × List Char)
  | 'e' :: rest | 'E' :: rest =>
    match rest with
    | '-' :: rest => (digits? rest).map fun (ds, r) => (some (-Digits.inBase 10 ds), r)
    | '+' :: rest => (digits? rest).map fun (ds, r) => (some (Digits.inBase 10 ds), r)
    | rest => (digits? rest).map fun (ds, r) => (some (Digits.inBase 10 ds), r)
  | s => some (none, s)

def numeral? (s : List Char) : Option (Numeral × List Char) := do
  let (negative, s) := match s with
    | '-' :: rest => (true, rest)
    | s => (false, s)
  let (whole, s) ← digits? s
  if whole.head? = some '0' && 1 < whole.length then none
  let (fraction, s) ← fraction? s
  let (exponent, s) ← exponent? s
  return (⟨negative, whole, fraction, exponent⟩, s)

def hex4? : List Char → Option (Nat × List Char)
  | a :: b :: c :: d :: rest => do
    if [a, b, c, d].all (Digits.isIn 16) then return (Digits.inBase 16 [a, b, c, d], rest) else none
  | _ => none

/-- The character after `\u`; a pair of surrogates is one character, a lone one is refused. -/
def unicode? (s : List Char) : Option (Char × List Char) := do
  let (n, rest) ← hex4? s
  if 0xDC00 ≤ n && n < 0xE000 then none
  else if 0xD800 ≤ n && n < 0xDC00 then
    match rest with
    | '\\' :: 'u' :: rest =>
      let (m, rest) ← hex4? rest
      if 0xDC00 ≤ m && m < 0xE000 then
        return (Char.ofNat (0x10000 + (n - 0xD800) * 0x400 + (m - 0xDC00)), rest)
      else none
    | _ => none
  else return (Char.ofNat n, rest)

def escape? : List Char → Option (Char × List Char)
  | '"' :: rest => some ('"', rest)
  | '\\' :: rest => some ('\\', rest)
  | '/' :: rest => some ('/', rest)
  | 'b' :: rest => some (Char.ofNat 8, rest)
  | 'f' :: rest => some (Char.ofNat 12, rest)
  | 'n' :: rest => some ('\n', rest)
  | 'r' :: rest => some ('\r', rest)
  | 't' :: rest => some ('\t', rest)
  | 'u' :: rest => unicode? rest
  | _ => none

/-- The rest of a string after its opening quote. -/
def stringTail? : Nat → List Char → List Char → Option (String × List Char)
  | 0, _, _ => none
  | fuel + 1, read, s =>
    match s with
    | '"' :: rest => some (String.ofList read.reverse, rest)
    | '\\' :: rest => do
      let (c, rest) ← escape? rest
      stringTail? fuel (c :: read) rest
    | c :: rest => if c.toNat < 32 then none else stringTail? fuel (c :: read) rest
    | [] => none

def skipSpace (s : List Char) : List Char := s.dropWhile isSpace

def string? (s : List Char) : Option (String × List Char) :=
  match s with
  | '"' :: rest => stringTail? (rest.length + 1) [] rest
  | _ => none

mutual
/-- The value that stands first, with `depth` levels of nesting still allowed. -/
def readValue? (fuel depth : Nat) (s : List Char) : Option (Json × List Char) :=
  match fuel with
  | 0 => none
  | fuel + 1 =>
    match skipSpace s with
    | 'n' :: 'u' :: 'l' :: 'l' :: rest => some (.null, rest)
    | 't' :: 'r' :: 'u' :: 'e' :: rest => some (.bool true, rest)
    | 'f' :: 'a' :: 'l' :: 's' :: 'e' :: rest => some (.bool false, rest)
    | '"' :: rest => (string? ('"' :: rest)).map fun (t, r) => (.string t, r)
    | '[' :: rest =>
      if depth ≤ 1 then none else
      match skipSpace rest with
      | ']' :: rest => some (.array [], rest)
      | rest => readItems? fuel (depth - 1) [] rest
    | '{' :: rest =>
      if depth ≤ 1 then none else
      match skipSpace rest with
      | '}' :: rest => some (.object [], rest)
      | rest => readFields? fuel (depth - 1) [] rest
    | s => do
      let (n, rest) ← numeral? s
      return (.number (← n.value), rest)

def readItems? (fuel depth : Nat) (read : List Json) (s : List Char) : Option (Json × List Char) :=
  match fuel with
  | 0 => none
  | fuel + 1 => do
    let (x, rest) ← readValue? fuel depth s
    match skipSpace rest with
    | ']' :: rest => return (.array (x :: read).reverse, rest)
    | ',' :: rest => readItems? fuel depth (x :: read) rest
    | _ => none

def readFields? (fuel depth : Nat) (read : Record) (s : List Char) : Option (Json × List Char) :=
  match fuel with
  | 0 => none
  | fuel + 1 => do
    let (k, rest) ← string? (skipSpace s)
    match skipSpace rest with
    | ':' :: rest =>
      if k = textKey && read.isEmpty then
        let (t, rest) ← string? (skipSpace rest)
        let j ← readWhole? fuel t.toList
        match skipSpace rest with
        | '}' :: rest => return (j, rest)
        | _ => none
      else
        let (x, rest) ← readValue? fuel depth rest
        match skipSpace rest with
        | '}' :: rest => return (.object (Assoc.put read k x), rest)
        | ',' :: rest => readFields? fuel depth (Assoc.put read k x) rest
        | _ => none
    | _ => none

/-- The value of a whole text. -/
def readWhole? (fuel : Nat) (s : List Char) : Option Json :=
  match fuel with
  | 0 => none
  | fuel + 1 => do
    let (j, rest) ← readValue? fuel depthLimit s
    if (skipSpace rest).isEmpty then some j else none
end

/-- The fuel is more than any text needs. -/
def parse? (s : String) : Option Json := readWhole? (s.length + 2) s.toList

end DataAccess.Json
