import DataAccess.Filter.Reader

/-! Joins of a second table. -/
namespace DataAccess

/-- Which side of a join must have a matching row. -/
inductive Required where
  | none | local | foreign | both
  deriving DecidableEq, Repr

namespace Required

def ofName (s : String) : Except Json.ShapeFault Required :=
  if s == "none" then .ok none
  else if s == "local" then .ok .local
  else if s == "foreign" then .ok foreign
  else if s == "both" then .ok both
  else .error (.unknownVariant s ["none", "local", "foreign", "both"])

def keyword : Required → String
  | none => "CROSS JOIN"
  | .local => "LEFT JOIN"
  | foreign => "RIGHT JOIN"
  | both => "INNER JOIN"

/-- The name, or an object with the name and a null. -/
def ofJson : Json → Except Json.ShapeFault Required
  | .string s => ofName s
  | .object [(s, v)] => do
    let required ← ofName s
    if v.isNull then return required else throw (.wrongType v "unit")
  | .object fields => .error (.wrongValue (.object fields) "map with a single key")
  | v => .error (.wrongType v "string or map")

end Required

/-- The keys default to the primary key; conditions between columns replace them. -/
structure Join where
  table : String
  localKey : Option String := none
  foreignKey : Option String := none
  required : Required := .both
  conditions : Option (List Condition) := none

namespace Join

def present : Json → Option Json
  | .null => none
  | v => some v

/-- What has been read of a join that is written as an object. -/
structure Fields where
  table : Option String := none
  localKey : Option String := none
  foreignKey : Option String := none
  required : Required := .both
  conditions : Option Json := none

/-- One field more; a field that joins do not have says nothing. -/
def Fields.read (f : Fields) (name : String) (v : Json) : Except Json.ShapeFault Fields :=
  match name with
  | "table" => do return { f with table := some (← v.readText) }
  | "local" => do return { f with localKey := ← v.readOptionalText }
  | "foreign" => do return { f with foreignKey := ← v.readOptionalText }
  | "required" => do return { f with required := ← Required.ofJson v }
  | "conditions" => .ok { f with conditions := present v }
  | _ => .ok f

/-- The fields are read in the order in which they stand. -/
def ofFields (fields : Record) : Except Json.ShapeFault (Join × Option Json) := do
  let f ← fields.foldlM (fun f e => f.read e.1 e.2) ({} : Fields)
  match f.table with
  | none => throw (.missingField "table")
  | some table =>
    let { localKey, foreignKey, required, .. } := f
    return ({ table, localKey, foreignKey, required }, f.conditions)

/-- The item for a field that a list cannot leave out. -/
def item (items : List Json) (place : Nat) : Except Json.ShapeFault Json :=
  match items[place]? with
  | some v => .ok v
  | none => .error (.wrongLength place "struct JoinInput with 5 elements")

/-- A list has the values of the fields, in the order of their declaration. -/
def ofItems (items : List Json) : Except Json.ShapeFault (Join × Option Json) := do
  let table ← (← item items 0).readText
  let localKey ← (← item items 1).readOptionalText
  let foreignKey ← (← item items 2).readOptionalText
  let required ← items[3]?.elim (.ok .both) Required.ofJson
  let conditions ← item items 4
  if 5 < items.length then throw (.wrongLength items.length "fewer elements in array")
  return ({ table, localKey, foreignKey, required }, present conditions)

/-- The join without its conditions, and the conditions as they are given. -/
def shape : Json → Except Json.ShapeFault (Join × Option Json)
  | .array items => ofItems items
  | .object fields => ofFields fields
  | v => .error (.wrongType v "struct JoinInput")

def on (join : Join) (conditions : Json) : Except Error Join := do
  return { join with conditions := some (← Condition.parseColumns conditions) }

def ofJson (j : Json) : Except Error Join :=
  match shape j with
  | .error fault => .error (.invalidJoin (.malformed fault))
  | .ok (join, none) => .ok join
  | .ok (join, some conditions) => join.on conditions

end Join
end DataAccess
