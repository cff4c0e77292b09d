import DataAccess.Toml.Value
import DataAccess.Number.Double
import DataAccess.Number.Digits

/-! Strings, numbers and points in time of TOML, each read from the front of a text. -/
namespace DataAccess.Toml
open Digits (inBase)

def isGap (c : Char) : Bool := c = ' ' || c = '\t'

def skipGap (s : List Char) : List Char := s.dropWhile isGap

/-- What may stand in a comment: everything but control characters, tabs excepted. -/
def isPlain (c : Char) : Bool := c = '\t' || (32 ≤ c.toNat && c.toNat ≠ 127)

def newline? : List Char → Option (List Char)
  | '\n' :: rest => some rest
  | '\r' :: '\n' :: rest => some rest
  | _ => none

/-- Exactly `n` hexadecimal digits. -/
def hexDigits? (n : Nat) (s : List Char) : Option (Nat × List Char) :=
  let ds := s.take n
  if ds.length = n && ds.all (Digits.isIn 16) then some (Digits.inBase 16 ds, s.drop n) else none

def scalarValue? (n : Nat) : Option Char :=
  if n < 0xD800 || (0xE000 ≤ n && n < 0x110000) then some (Char.ofNat n) else none

/-- The character that the letters after a backslash stand for. -/
def escape? : List Char → Option (Char × List Char)
  | '"' :: rest => some ('"', rest)
  | '\\' :: rest => some ('\\', rest)
  | 'b' :: rest => some (Char.ofNat 8, rest)
  | 'f' :: rest => some (Char.ofNat 12, rest)
  | 'n' :: rest => some ('\n', rest)
  | 'r' :: rest => some ('\r', rest)
  | 't' :: rest => some ('\t', rest)
  | 'u' :: rest => do
    let (n, rest) ← hexDigits? 4 rest
    return (← scalarValue? n, rest)
  | 'U' :: rest => do
    let (n, rest) ← hexDigits? 8 rest
    return (← scalarValue? n, rest)
  | _ => none

def basicTail? : Nat → List Char → List Char → Option (String × List Char)
  | 0, _, _ => none
  | fuel + 1, read, s =>
    match s with
    | [] => none
    | '"' :: rest => some (String.ofList read.reverse, rest)
    | '\\' :: rest => do
      let (c, rest) ← escape? rest
      basicTail? fuel (c :: read) rest
    | c :: rest => if isPlain c then basicTail? fuel (c :: read) rest else none

def literalTail? : Nat → List Char → List Char → Option (String × List Char)
  | 0, _, _ => none
  | fuel + 1, read, s =>
    match s with
    | [] => none
    | '\x27' :: rest => some (String.ofList read.reverse, rest)
    | c :: rest => if isPlain c then literalTail? fuel (c :: read) rest else none

/-- What follows blanks and line ends. -/
def skipFolded : List Char → List Char
  | '\r' :: '\n' :: rest => skipFolded rest
  | c :: rest => if isGap c || c = '\n' then skipFolded rest else c :: rest
  | [] => []

/-- A backslash at the end of a line takes the blanks and line ends after it. -/
def continued? (s : List Char) : Option (List Char) := (newline? (skipGap s)).map skipFolded

/-- Three to five quotes end the text; the ones before the last three belong to it. -/
def closing (quote : Char) (s : List Char) : Nat × Bool :=
  let run := (s.takeWhile (· = quote)).length
  if run < 3 then (run, false) else (min run 5 - 3, true)

def multiTail? (quote : Char) : Nat → List Char → List Char → Option (String × List Char)
  | 0, _, _ => none
  | fuel + 1, read, s =>
    match s with
    | [] => none
    | c :: rest =>
      if c = quote then
        match closing quote s with
        | (kept, true) =>
          some (String.ofList (List.replicate kept quote ++ read).reverse, s.drop (kept + 3))
        | (kept, false) => multiTail? quote fuel (List.replicate kept quote ++ read) (s.drop kept)
      else if c = '\\' && quote = '"' then
        match continued? rest with
        | some rest => multiTail? quote fuel read rest
        | none => do
          let (e, rest) ← escape? rest
          multiTail? quote fuel (e :: read) rest
      else
        match newline? s with
        | some rest => multiTail? quote fuel ('\n' :: read) rest
        | none => if isPlain c then multiTail? quote fuel (c :: read) rest else none

/-- A line end right after the opening quotes is dropped. -/
def multi? (quote : Char) (s : List Char) : Option (String × List Char) :=
  let s := (newline? s).getD s
  multiTail? quote (s.length + 1) [] s

def string? (s : List Char) : Option (String × List Char) :=
  match s with
  | '"' :: '"' :: '"' :: rest => multi? '"' rest
  | '\x27' :: '\x27' :: '\x27' :: rest => multi? '\x27' rest
  | '"' :: rest => basicTail? (rest.length + 1) [] rest
  | '\x27' :: rest => literalTail? (rest.length + 1) [] rest
  | _ => none

/-- Digits with single underscores between them. -/
def grouped (isDigit : Char → Bool) : List Char → List Char × List Char
  | [] => ([], [])
  | '_' :: c :: rest =>
    if isDigit c then
      let (ds, rest) := grouped isDigit rest
      (c :: ds, rest)
    else ([], '_' :: c :: rest)
  | c :: rest =>
    if isDigit c then
      let (ds, rest) := grouped isDigit rest
      (c :: ds, rest)
    else ([], c :: rest)

def digits? (isDigit : Char → Bool) : List Char → Option (List Char × List Char)
  | [] => none
  | c :: rest =>
    if isDigit c then
      let (ds, rest) := grouped isDigit rest
      some (c :: ds, rest)
    else none

/-- Digits without a leading zero. -/
def wholeDigits? : List Char → Option (List Char × List Char)
  | '0' :: rest => some (['0'], rest)
  | s => digits? Char.isDigit s

def integerOf? (i : Int) : Option Toml :=
  if -(pow2 63 : Int) ≤ i && i < pow2 63 then some (.integer i) else none

def based? (base : Nat) (s : List Char) : Option (Toml × List Char) := do
  let (ds, rest) ← digits? (Digits.isIn base) s
  return (← integerOf? (inBase base ds), rest)

/-- A number that is too large for a finite float is refused, unless it is negative. -/
def float? (negative : Bool) (digits : List Char) (power : Int) : Option Toml :=
  let digits := digits.dropWhile (· = '0')
  let size : Int := digits.length + power
  if negative || digits.isEmpty || size < 300 then some .float
  else if 310 < size then none
  else
    let n := inBase 10 digits
    (Double.ofRatio false (n * pow10 power.toNat) (pow10 (-power).toNat)).map fun _ => .float

def exponent? : List Char → Option (Int × List Char)
  | '-' :: rest => (digits? Char.isDigit rest).map fun (ds, r) => (-(inBase 10 ds : Int), r)
  | '+' :: rest => (digits? Char.isDigit rest).map fun (ds, r) => ((inBase 10 ds : Int), r)
  | rest => (digits? Char.isDigit rest).map fun (ds, r) => ((inBase 10 ds : Int), r)

def decimal? (negative : Bool) (s : List Char) : Option (Toml × List Char) :=
  match s with
  | 'i' :: 'n' :: 'f' :: rest => some (.float, rest)
  | 'n' :: 'a' :: 'n' :: rest => some (.float, rest)
  | s => do
    let (whole, rest) ← wholeDigits? s
    match rest with
    | '.' :: rest =>
      let (fraction, rest) ← digits? Char.isDigit rest
      match rest with
      | 'e' :: rest | 'E' :: rest =>
        let (e, rest) ← exponent? rest
        return (← float? negative (whole ++ fraction) (e - fraction.length), rest)
      | rest => return (← float? negative (whole ++ fraction) (-fraction.length), rest)
    | 'e' :: rest | 'E' :: rest =>
      let (e, rest) ← exponent? rest
      return (← float? negative whole e, rest)
    | rest =>
      let n : Int := inBase 10 whole
      return (← integerOf? (if negative then -n else n), rest)

def number? : List Char → Option (Toml × List Char)
  | '0' :: 'x' :: rest => based? 16 rest
  | '0' :: 'o' :: rest => based? 8 rest
  | '0' :: 'b' :: rest => based? 2 rest
  | '+' :: rest => decimal? false rest
  | '-' :: rest => decimal? true rest
  | s => decimal? false s

/-- Exactly `n` digits that make a number from `low` to `high`. -/
def field? (n low high : Nat) (s : List Char) : Option (Nat × List Char) :=
  let ds := s.take n
  let v := inBase 10 ds
  if ds.length = n && ds.all Char.isDigit && low ≤ v && v ≤ high then some (v, s.drop n) else none

def mark? (c : Char) : List Char → Option (List Char)
  | d :: rest => if d = c then some rest else none
  | [] => none

def daysIn (year month : Nat) : Nat :=
  if month = 2 then
    if year % 4 = 0 && (year % 100 ≠ 0 || year % 400 = 0) then 29 else 28
  else if month = 4 || month = 6 || month = 9 || month = 11 then 30 else 31

def date? (s : List Char) : Option (List Char) := do
  let (year, s) ← field? 4 0 9999 s
  let (month, s) ← field? 2 1 12 (← mark? '-' s)
  let (_, s) ← field? 2 1 (daysIn year month) (← mark? '-' s)
  return s

/-- Time of day, with a fraction of a second if digits follow the point. -/
def time? (s : List Char) : Option (List Char) := do
  let (_, s) ← field? 2 0 23 s
  let (_, s) ← field? 2 0 59 (← mark? ':' s)
  let (_, s) ← field? 2 0 60 (← mark? ':' s)
  match s with
  | '.' :: c :: rest => return if c.isDigit then rest.dropWhile Char.isDigit else s
  | s => return s

def offset? : List Char → Option (List Char)
  | 'Z' :: rest | 'z' :: rest => some rest
  | '+' :: rest | '-' :: rest => do
    let (_, s) ← field? 2 0 23 rest
    let (_, s) ← field? 2 0 59 (← mark? ':' s)
    return s
  | s => some s

def looksLike (n : Nat) (c : Char) (s : List Char) : Bool :=
  (s.take n).length = n && (s.take n).all Char.isDigit && (s.drop n).head? = some c

def moment? (s : List Char) : Option (Toml × List Char) :=
  if looksLike 4 '-' s then do
    let s ← date? s
    match s with
    | d :: rest =>
      if (d = 'T' || d = 't' || d = ' ') && looksLike 2 ':' rest then
        return (.moment, ← offset? (← time? rest))
      else return (.moment, s)
    | [] => return (.moment, [])
  else (time? s).map fun rest => (.moment, rest)

/-- A value that begins like a number. -/
def numeric? (s : List Char) : Option (Toml × List Char) :=
  if looksLike 4 '-' s || looksLike 2 ':' s then moment? s else number? s

end DataAccess.Toml
