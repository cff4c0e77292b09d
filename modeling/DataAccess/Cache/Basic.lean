import DataAccess.Error

/-! Records of one kind that are kept, and found again by some of their fields. -/
namespace DataAccess

/-- The kept records, oldest first, and how many look-ups found one. -/
structure Cache where
  entries : List Record := []
  hits : Nat := 0

namespace Cache

/-- Every given field has its value in the record; a field that is missing there is null. -/
def agrees (identifiers entry : Record) : Bool :=
  identifiers.all fun e => Json.same ((Assoc.get? entry e.1).getD .null) e.2

def identifiers (v : Json) : Except Error Record :=
  match v with
  | .object fields => .ok fields
  | v => .error (.invalidCacheValue (.identifiers v))

/-- The records of a list; nulls and empty records are left out. -/
def listed : List Json → Except Error (List Record)
  | [] => .ok []
  | .null :: rest => listed rest
  | .object [] :: rest => listed rest
  | .object fields :: rest => do return fields :: (← listed rest)
  | v :: _ => .error (.invalidCacheValue (.record v))

/-- The list inside a page, which has a total beside it. -/
def pageItems? (fields : Record) : Option (List Json) :=
  match Assoc.get? fields "items", Assoc.get? fields "total" with
  | some (.array items), some _ => some items
  | _, _ => none

/-- The records to store for a record, a list of records or a page. -/
def records : Json → Except Error (List Record)
  | .null => .ok []
  | .array items => listed items
  | .object fields =>
    match pageItems? fields with
    | some items => listed items
    | none => .ok (if fields.isEmpty then [] else [fields])
  | v => .error (.invalidCacheValue (.records v))

def find? (c : Cache) (identifiers : Record) : Option Record :=
  c.entries.find? (agrees identifiers)

def add (c : Cache) (records : List Record) : Cache := { c with entries := c.entries ++ records }

def remove (c : Cache) (identifiers : Record) : Cache :=
  { c with entries := c.entries.filter fun e => !agrees identifiers e }

/-- Fields of `delta` in the first matching entry, with the entry as it is then. -/
def merge (identifiers delta : Record) : List Record → Option (Record × List Record)
  | [] => none
  | e :: rest =>
    if agrees identifiers e then some (Assoc.putAll e delta, Assoc.putAll e delta :: rest)
    else (merge identifiers delta rest).map fun r => (r.1, e :: r.2)

/-- Stores a record, a list of records or a page. -/
def set (c : Cache) (values : Json) : Except Error Cache := do return c.add (← records values)

/-- New records take the place of the matching ones. -/
def update (c : Cache) (ids values : Json) : Except Error Cache := do
  let ids ← identifiers ids
  let records ← records values
  return (c.remove ids).add records

def patch (c : Cache) (ids delta : Json) : Except Error (Option Record × Cache) := do
  let ids ← identifiers ids
  match delta with
  | .object delta =>
    match merge ids delta c.entries with
    | some (entry, entries) => return (some entry, { c with entries })
    | none => return (none, c)
  | delta => .error (.invalidCacheValue (.delta delta))

/-- Drops the matching records and tells how many there were. -/
def invalidate (c : Cache) (ids : Json) : Except Error (Nat × Cache) := do
  let rest := c.remove (← identifiers ids)
  return (c.entries.length - rest.entries.length, rest)

/-- A look-up; one that finds a record counts as a hit. -/
def lookup (c : Cache) (identifiers : Record) : Option Record × Cache :=
  match c.find? identifiers with
  | some e => (some e, { c with hits := c.hits + 1 })
  | none => (none, c)

end Cache
end DataAccess
