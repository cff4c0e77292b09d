/-! Variables of an environment, and replacing `${NAME}` in a text by them. -/
namespace DataAccess.Environment

/-- An environment holds lines `NAME=value`, and the value of a name is what follows `name=` in the
first line that begins so. A name with an equals sign thus reaches into a value; an empty name
has none. -/
def lookup (entries : List (String × String)) (name : String) : Option String :=
  if name.isEmpty then none
  else entries.findSome? fun e =>
    ((name.toList ++ ['=']).isPrefixOf? (e.1.toList ++ '=' :: e.2.toList)).map String.ofList

/-- Copies a text, or collects a name up to its closing brace. Values are put in as they are, and
a reference that is not closed stands for itself. -/
def expandFrom (value : List Char → List Char) : Option (List Char) → List Char → List Char
  | none, [] => []
  | some name, [] => '$' :: '\x7b' :: name.reverse
  | some name, c :: rest =>
    if c = '\x7d' then value name.reverse ++ expandFrom value none rest
    else expandFrom value (some (c :: name)) rest
  | none, '$' :: '\x7b' :: rest => expandFrom value (some []) rest
  | none, c :: rest => c :: expandFrom value none rest

/-- An unset variable is empty. -/
def expand (environment : String → Option String) (s : String) : String :=
  String.ofList
    (expandFrom (fun name => ((environment (String.ofList name)).getD "").toList) none s.toList)

/-- The variables that a text refers to; `name` is collected backwards. -/
def namesFrom : (name : Option (List Char)) → List Char → List String
  | _, [] => []
  | some name, c :: rest =>
    if c = '\x7d' then String.ofList name.reverse :: namesFrom none rest
    else namesFrom (some (c :: name)) rest
  | none, '$' :: '\x7b' :: rest => namesFrom (some []) rest
  | none, _ :: rest => namesFrom none rest

def names (s : String) : List String := namesFrom none s.toList

end DataAccess.Environment
