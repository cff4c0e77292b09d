import DataAccess.Toml.Value

/-!
How the lines of a TOML document add up to one table: what a header or a dotted key may still
extend, and what it may not define again.
-/
namespace DataAccess.Toml

/-- Who made a table: a header or braces, the path of a longer header, or a dotted key. -/
inductive Origin where
  | defined | implied | dotted
  deriving DecidableEq, Repr

inductive Node where
  | leaf (value : Toml)
  | table (origin : Origin) (entries : List (String × Node))
  | tables (items : List (List (String × Node)))
  deriving Inhabited

abbrev Entries := List (String × Node)

mutual
def Node.value : Node → Toml
  | .leaf v => v
  | .table _ entries => .table (entryValues entries)
  | .tables items => .array (itemValues items)
termination_by structural n => n

def entryValues : List (String × Node) → List (String × Toml)
  | [] => []
  | (k, n) :: rest => (k, n.value) :: entryValues rest
termination_by structural l => l

def itemValues : List (List (String × Node)) → List Toml
  | [] => []
  | entries :: rest => .table (entryValues entries) :: itemValues rest
termination_by structural l => l
end

/-- Changes the table at the end of a path, making the missing tables; `dotted` tells whether
the path comes from a dotted key, which extends only tables that have no header. -/
def change (dotted : Bool) (origin : Origin) (entries : Entries) (path : List String)
    (f : Origin → Entries → Option Entries) : Option Entries :=
  match path with
  | [] => f origin entries
  | key :: path => do
    let made : Origin := if dotted then .dotted else .implied
    match (Assoc.get? entries key).getD (.table made []) with
    | .leaf _ => none
    | .tables items =>
      let last := items.getLast?.getD []
      let changed ← change dotted .defined last path f
      return Assoc.put entries key (.tables (items.dropLast ++ [changed]))
    | .table found inner =>
      if dotted && found = .defined then none
      else return Assoc.put entries key (.table found (← change dotted found inner path f))

/-- Sets `path.key` in a table; only tables made by dotted keys take keys by a path. -/
def assign (entries : Entries) (path : List String) (key : String) (value : Toml) :
    Option Entries :=
  change true .defined entries path fun origin inner =>
    if (origin = .dotted) != !path.isEmpty then none
    else if (Assoc.get? inner key).isSome then none
    else some (inner ++ [(key, .leaf value)])

/-- A document that is being read: all finished tables, and the one that takes the next keys. -/
structure Draft where
  root : Entries := []
  path : List String := []
  inArray : Bool := false
  entries : Entries := []

/-- Puts the unfinished table in its place. -/
def Draft.settle (d : Draft) : Option Entries :=
  match d.path.getLast? with
  | none => some d.entries
  | some key =>
    change false .defined d.root d.path.dropLast fun _ inner =>
      match Assoc.get? inner key with
      | none =>
        some (inner ++ [(key, if d.inArray then .tables [d.entries] else .table .defined d.entries)])
      | some (.tables items) =>
        if d.inArray then some (Assoc.put inner key (.tables (items ++ [d.entries]))) else none
      | some (.table .implied _) =>
        if d.inArray then none else some (Assoc.put inner key (.table .defined d.entries))
      | some _ => none

/-- A `[path]` header: the table may exist only as part of the path of another header. -/
def Draft.header (d : Draft) (path : List String) : Option Draft := do
  let root ← d.settle
  let key ← path.getLast?
  let root ← change false .defined root path.dropLast fun _ inner => some inner
  let parent ← parentOf root path.dropLast
  match Assoc.get? parent key with
  | none => return { root, path }
  | some (.table .implied entries) =>
    let root ← change false .defined root path.dropLast fun _ inner => some (Assoc.erase inner key)
    return { root, path, entries }
  | some _ => none
where
  parentOf (entries : Entries) : List String → Option Entries
    | [] => some entries
    | key :: path =>
      match Assoc.get? entries key with
      | some (.table _ inner) => parentOf inner path
      | some (.tables items) => parentOf (items.getLast?.getD []) path
      | _ => none

/-- A `[[path]]` header: a further table of an array that such headers made. -/
def Draft.arrayHeader (d : Draft) (path : List String) : Option Draft := do
  let root ← d.settle
  let key ← path.getLast?
  let root ← change false .defined root path.dropLast fun _ inner =>
    match Assoc.get? inner key with
    | none | some (.tables _) => some inner
    | some _ => none
  return { root, path, inArray := true }

def Draft.set (d : Draft) (path : List String) (key : String) (value : Toml) : Option Draft := do
  return { d with entries := ← assign d.entries path key value }

end DataAccess.Toml
