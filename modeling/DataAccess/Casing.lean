import DataAccess.Text.Letter
import DataAccess.Text.Cut

/-! Naming conventions, and how a name of any of them is spelled in another. -/
namespace DataAccess

inductive Casing where
  | snake | camel | pascal | kebab | constant
  deriving DecidableEq, Repr, Inhabited

namespace Casing
open Text

def all : List Casing := [snake, camel, pascal, kebab, constant]

def name : Casing → String
  | snake => "snake"
  | camel => "camel"
  | pascal => "pascal"
  | kebab => "kebab"
  | constant => "constant"

def ofName? (s : String) : Option Casing := all.find? fun c => c.name == s

/-- The name of a convention in any case. -/
def parse? (s : String) : Option Casing := ofName? (String.ofList (lowercase s.toList))

/-- What is said of a name that `parse?` refuses. -/
def refusal (s : String) : String := "Unknown casing: " ++ s

def isSeparator (c : Char) : Bool := c = '_' || c = '-' || isBlank c

/-- Whether `c` begins a word after the unfinished word `current`, which is read backwards. -/
def startsWord (current : List Char) (c : Char) (next : Option Char) : Bool :=
  match current with
  | [] => false
  | p :: _ =>
    isUpper c &&
      (isLower p || (p.isDigit && current.any isLower) || (isUpper p && next.any isLower))

def flush (current : List Char) : List (List Char) :=
  if current.isEmpty then [] else [current.reverse]

def wordsFrom (current : List Char) : List Char → List (List Char)
  | [] => flush current
  | c :: rest =>
    if isSeparator c then flush current ++ wordsFrom [] rest
    else if startsWord current c rest.head? then current.reverse :: wordsFrom [c] rest
    else wordsFrom (c :: current) rest

/-- Words end at separators and where the case tells. -/
def words (s : List Char) : List (List Char) := wordsFrom [] s

def capitalize : List Char → List Char
  | [] => []
  | c :: rest => upper c ++ rest.flatMap lower

def assemble (casing : Casing) (ws : List (List Char)) : List Char :=
  match casing with
  | snake => joined ['_'] (ws.map lowercase)
  | kebab => joined ['-'] (ws.map lowercase)
  | constant => joined ['_'] (ws.map uppercase)
  | pascal => ws.flatMap capitalize
  | camel =>
    match ws with
    | [] => []
    | w :: rest => lowercase w ++ rest.flatMap capitalize

/-- Leading underscores are kept. -/
def convertChars (casing : Casing) (s : List Char) : List Char :=
  s.takeWhile (· = '_') ++ assemble casing (words (s.dropWhile (· = '_')))

def convert (casing : Casing) (s : String) : String := String.ofList (convertChars casing s.toList)

end Casing

/-- The conventions of the database and of application records. -/
structure Naming where
  db : Casing := .snake
  app : Casing := .camel
  deriving DecidableEq, Repr

namespace Naming

def toDb (n : Naming) (s : String) : String := n.db.convert s
def toApp (n : Naming) (s : String) : String := n.app.convert s

end Naming
end DataAccess
