import DataAccess.Config.Basic
import DataAccess.Config.Environment
import DataAccess.Toml.Reader

/-!
Settings from a table. Each section takes its entries by name, or by place from a list; unknown
names are ignored, and an entry given under two of its names is refused. A point in time counts as
a section too, one that holds none of the entries.
-/
namespace DataAccess.Config

/-- A section: the entries by name, or the values in the order of the fields. -/
inductive Section where
  | named (entries : List (String × Toml))
  | placed (values : List Toml)

def Section.of? : Toml → Option Section
  | .table entries => some (.named entries)
  | .array values => some (.placed values)
  | .moment => some (.named [])
  | _ => none

/-- The field in the given place, or with one of the names; `read` refuses a wrong value. -/
def Section.field? (s : Section) (place : Nat) (names : List String) (read : Toml → Option α)
    (default : α) : Option α :=
  match s with
  | .placed values =>
    match values[place]? with
    | some v => read v
    | none => some default
  | .named entries =>
    match entries.filter fun e => names.contains e.1 with
    | [] => some default
    | [e] => read e.2
    | _ => none

def text? : Toml → Option String
  | .string s => some s
  | _ => none

def flag? : Toml → Option Bool
  | .boolean b => some b
  | _ => none

def count? : Toml → Option Nat
  | .integer i => if 0 ≤ i && i < pow2 32 then some i.toNat else none
  | _ => none

def isEmpty : Toml → Bool
  | .null | .array [] | .table [] => true
  | _ => false

/-- One of several names: the text itself, or the only key of a table, with an empty value. -/
def choice? (ofName? : String → Option α) : Toml → Option α
  | .string s => ofName? s
  | .table [(s, v)] => if isEmpty v then ofName? s else none
  | _ => none

/-- A length of time as text, or as a count of milliseconds. -/
def delay? : Toml → Option Duration
  | .integer i => if 0 ≤ i then some (Duration.ofMillis i.toNat) else none
  | .string s => Duration.parse? s
  | _ => none

/-- A null stands for a text that is not set. -/
def address? : Toml → Option (Option String)
  | .null => some none
  | t => (text? t).map some

def naming? (t : Toml) : Option Naming := do
  let s ← Section.of? t
  return {
    db := ← s.field? 0 ["db"] (choice? Casing.ofName?) .snake
    app := ← s.field? 1 ["app", "js"] (choice? Casing.ofName?) .camel }

def retry? (t : Toml) : Option Retry := do
  let s ← Section.of? t
  return {
    count := ← s.field? 0 ["count"] count? 1
    delay := ← s.field? 1 ["delay"] delay? Duration.zero }

def connection? (t : Toml) : Option Retry := do
  (← Section.of? t).field? 0 ["retry"] retry? {}

def transactions? (t : Toml) : Option (Isolation × Bool) := do
  let s ← Section.of? t
  return (← s.field? 0 ["mode"] (choice? Isolation.ofName?) .readCommitted,
    ← s.field? 1 ["always"] flag? false)

def schema? (t : Toml) : Option Bool := do
  (← Section.of? t).field? 0 ["introspect"] flag? true

def pool? (t : Toml) : Option PoolSettings := do
  let s ← Section.of? t
  return {
    databaseUrl := ← s.field? 0 ["database_url"] address? none
    maxConnections := ← s.field? 1 ["max_connections"] count? 5 }

def ofEntries? (entries : List (String × Toml)) : Option Config := do
  let s := Section.named entries
  let (isolation, alwaysTransact) ←
    s.field? 2 ["transactions"] transactions? (Isolation.readCommitted, false)
  return {
    naming := ← s.field? 0 ["casing"] naming? {}
    primaryKey := ← s.field? 1 ["default_primary_key", "defaultPrimaryKey"] text? "id"
    isolation, alwaysTransact
    commit := ← s.field? 3 ["commit"] flag? true
    dropNulls := ← s.field? 4 ["null_is_undefined", "nullIsUndefined"] flag? true
    retry := ← s.field? 5 ["connection"] connection? {}
    introspect := ← s.field? 6 ["schema"] schema? true
    pool := ← s.field? 7 ["pool"] pool? {} }

def ofJson? (j : Json) : Option Config := do ofEntries? (Toml.ofFields (← j.fields?))

/-- Settings from a document; references in the address of the database are replaced. -/
def parse (environment : String → Option String) (document : String) : Except Error Config :=
  match (Toml.parse? document).bind ofEntries? with
  | none => .error (.config .invalid)
  | some c =>
    .ok { c with pool := { c.pool with
      databaseUrl := c.pool.databaseUrl.map (Environment.expand environment) } }

/-- A mode written as JSON: its name, or an object with the name and a null. -/
def isolationOfJson? : Json → Option Isolation
  | .string s => Isolation.ofName? s
  | .object [(s, .null)] => Isolation.ofName? s
  | _ => none

end DataAccess.Config
