import DataAccess.Toml.Scalar
import DataAccess.Toml.Document

/-! Reading a TOML document. -/
namespace DataAccess.Toml

/-- Nesting at and past this depth is refused, and so is a dotted key of so many parts. -/
def depthLimit : Nat := 80

def isBare (c : Char) : Bool := c.isAlphanum || c = '-' || c = '_'

def simpleKey? (s : List Char) : Option (String × List Char) :=
  match s with
  | '"' :: rest => basicTail? (rest.length + 1) [] rest
  | '\x27' :: rest => literalTail? (rest.length + 1) [] rest
  | s =>
    let k := s.takeWhile isBare
    if k.isEmpty then none else some (String.ofList k, s.dropWhile isBare)

/-- A dotted key of `parts` parts at most, with the blanks around it. -/
def keyWithin? : (parts : Nat) → List Char → Option (List String × List Char)
  | 0, _ => none
  | parts + 1, s => do
    let (k, rest) ← simpleKey? (skipGap s)
    match skipGap rest with
    | '.' :: rest =>
      let (ks, rest) ← keyWithin? parts rest
      return (k :: ks, rest)
    | rest => return ([k], rest)

def key? (s : List Char) : Option (List String × List Char) := keyWithin? (depthLimit - 1) s

/-- The text after a comment, if one begins here. -/
def skipComment : List Char → List Char
  | '#' :: rest => rest.dropWhile isPlain
  | s => s

/-- Blanks, line ends and comments inside an array. -/
def skipLines : Nat → List Char → List Char
  | 0, s => s
  | fuel + 1, s =>
    match skipGap s with
    | '#' :: rest =>
      match newline? (skipComment ('#' :: rest)) with
      | some rest => skipLines fuel rest
      | none => '#' :: rest
    | s =>
      match newline? s with
      | some rest => skipLines fuel rest
      | none => s

mutual
def readValue? (fuel depth : Nat) (s : List Char) : Option (Toml × List Char) :=
  match fuel with
  | 0 => none
  | fuel + 1 =>
    match s with
    | [] => none
    | '"' :: _ | '\x27' :: _ => (string? s).map fun (t, rest) => (.string t, rest)
    | '[' :: rest => if depth ≤ 1 then none else readItems? fuel (depth - 1) [] rest
    | '{' :: rest =>
      if depth ≤ 1 then none else
      match skipGap rest with
      | '}' :: rest => some (.table [], rest)
      | rest => readPairs? fuel (depth - 1) [] rest
    | 't' :: 'r' :: 'u' :: 'e' :: rest => some (.boolean true, rest)
    | 'f' :: 'a' :: 'l' :: 's' :: 'e' :: rest => some (.boolean false, rest)
    | s => numeric? s

def readItems? (fuel depth : Nat) (read : List Toml) (s : List Char) : Option (Toml × List Char) :=
  match fuel with
  | 0 => none
  | fuel + 1 =>
    match skipLines (s.length + 1) s with
    | ']' :: rest => some (.array read.reverse, rest)
    | s => do
      let (v, rest) ← readValue? fuel depth s
      match skipLines (rest.length + 1) rest with
      | ',' :: rest => readItems? fuel depth (v :: read) rest
      | ']' :: rest => return (.array (v :: read).reverse, rest)
      | _ => none

def readPairs? (fuel depth : Nat) (read : Entries) (s : List Char) : Option (Toml × List Char) :=
  match fuel with
  | 0 => none
  | fuel + 1 => do
    let (keys, rest) ← key? s
    match rest with
    | '=' :: rest =>
      let (v, rest) ← readValue? fuel depth (skipGap rest)
      let read ← assign read keys.dropLast (← keys.getLast?) v
      match skipGap rest with
      | ',' :: rest => readPairs? fuel depth read rest
      | '}' :: rest => return (.table (entryValues read), rest)
      | _ => none
    | _ => none
end

/-- The rest of a line that is complete but for blanks and a comment. -/
def lineEnd? (s : List Char) : Option (List Char) :=
  match skipComment (skipGap s) with
  | [] => some []
  | s => newline? s

/-- A document, header or key by line. -/
def readLines? : Nat → Draft → List Char → Option Draft
  | 0, _, _ => none
  | fuel + 1, d, s =>
    match skipGap s with
    | [] => some d
    | '[' :: '[' :: rest => do
      let (path, rest) ← key? rest
      match rest with
      | ']' :: ']' :: rest => readLines? fuel (← d.arrayHeader path) (← lineEnd? rest)
      | _ => none
    | '[' :: rest => do
      let (path, rest) ← key? rest
      match rest with
      | ']' :: rest => readLines? fuel (← d.header path) (← lineEnd? rest)
      | _ => none
    | s =>
      match lineEnd? s with
      | some rest => readLines? fuel d rest
      | none => do
        let (keys, rest) ← key? s
        match rest with
        | '=' :: rest =>
          let (v, rest) ← readValue? (rest.length + 1) depthLimit (skipGap rest)
          readLines? fuel (← d.set keys.dropLast (← keys.getLast?) v) (← lineEnd? rest)
        | _ => none

/-- The table that a document holds. -/
def parse? (s : String) : Option (List (String × Toml)) := do
  let cs := match s.toList with
    | c :: rest => if c.toNat = 0xFEFF then rest else c :: rest
    | [] => []
  let d ← readLines? (cs.length + 1) {} cs
  return entryValues (← d.settle)

end DataAccess.Toml
