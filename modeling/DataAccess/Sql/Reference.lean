import DataAccess.Number.Power
import DataAccess.Casing

/-!
Names of tables and columns as SQL writes them. A colon in front marks raw SQL, an exclamation
mark a name without quotes, and arrows lead into a JSON document.
-/
namespace DataAccess.Naming
open Text

/-- The star stands for every column in each convention. -/
def segment (n : Naming) (s : List Char) : List Char :=
  if s = ['*'] then s else n.db.convertChars s

/-- A name without quotes, converted between its dots. -/
def storageChars (n : Naming) (s : List Char) : List Char :=
  match unmarked ':' s with
  | some raw => raw
  | none => joined ['.'] ((parts '.' s).map n.segment)

def storageName (n : Naming) (s : String) : String := String.ofList (n.storageChars s.toList)

/-- A name with dots in it is not quoted. -/
def headChars (n : Naming) (s : List Char) : List Char :=
  if s.contains '.' then n.storageChars s else '"' :: n.segment s ++ ['"']

/-- Digits with an optional sign that a signed word of 64 bits holds. -/
def isIndex (s : List Char) : Bool :=
  let (negative, ds) := match s with
    | '-' :: ds => (true, ds)
    | '+' :: ds => (false, ds)
    | ds => (false, ds)
  let n := ds.foldl (fun n c => n * 10 + (c.toNat - 48)) 0
  !ds.isEmpty && ds.all Char.isDigit && (if negative then n ≤ pow2 63 else n < pow2 63)

/-- A quote inside a literal is written twice. -/
def literal (s : List Char) : List Char :=
  '\x27' :: s.flatMap (fun c => if c = '\x27' then ['\x27', '\x27'] else [c]) ++ ['\x27']

/-- One step into a document: a number as it is, a key in the application convention. -/
def keyChars (n : Naming) (s : List Char) : List Char :=
  if isIndex s then s else literal (n.app.convertChars s)

def arrowChars (n : Naming) (s : List Char) : List Char :=
  match unmarked '>' s with
  | some key => '-' :: '>' :: '>' :: n.keyChars key
  | none => '-' :: '>' :: n.keyChars s

/-- The steps of a path: what stands before the first arrow and what follows each. -/
def pathChars (n : Naming) : List (List Char) → List Char
  | [] => []
  | head :: steps => n.headChars head ++ steps.flatMap n.arrowChars

def isPath (s : List Char) : Bool := 1 < (arrowParts s).length

def columnChars (n : Naming) (s : List Char) : List Char :=
  match unmarked ':' s, unmarked '!' s with
  | some raw, _ => raw
  | none, some bare => n.storageChars bare
  | none, none => if isPath s then n.pathChars (arrowParts s) else n.headChars s

/-- A column in conditions, groups and sort keys. -/
def column (n : Naming) (s : String) : String := String.ofList (n.columnChars s.toList)

/-- A minus or a plus in front tells the direction. -/
def sortKey (n : Naming) (s : String) : String :=
  match unmarked '-' s.toList, unmarked '+' s.toList with
  | some key, _ => String.ofList (n.columnChars key) ++ " DESC"
  | none, some key => String.ofList (n.columnChars key) ++ " ASC"
  | none, none => n.column s

/-- A key to return: a name, or a name and an alias with a colon between them. -/
def selectKey (n : Naming) (s : String) : String :=
  match unmarked ':' s.toList with
  | some raw => String.ofList raw
  | none =>
    match cutFirst ':' s.toList with
    | some (name, label) =>
      String.ofList (n.storageChars name) ++ " AS " ++ String.ofList (n.storageChars label)
    | none => n.storageName s

/-- A key of a join belongs to the table unless a dot says otherwise. -/
def joinKey (n : Naming) (table key : String) : String :=
  match unmarked ':' key.toList with
  | some raw => String.ofList raw
  | none =>
    if key.toList.contains '.' then n.storageName key
    else table ++ "." ++ String.ofList (n.segment key.toList)

end DataAccess.Naming
