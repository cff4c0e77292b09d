import DataAccess.Session.World

/-! The caches of a session. Whoever uses one has it for himself until he is done. -/
namespace DataAccess.Cache
variable {σ α : Type}

def look (n : Nat) (entity : String) : Act (World σ) Cache :=
  .read fun w => (w.session n).cache entity

/-- A change of the cache that may be refused, and then changes nothing. -/
def change (n : Nat) (entity : String) (f : Cache → Except Error (α × Cache)) :
    Act (World σ) α :=
  .step fun w =>
    let s := w.session n
    match f (s.cache entity) with
    | .ok (a, c) => (.ok a, w.putSession n (s.putCache entity c))
    | .error e => (.error e, w)

def exclusive (n : Nat) (entity : String) (task : Act (World σ) α) : Act (World σ) α :=
  .holding (.cache n entity) task

/-- A look-up, whose hit counts for the cache and for the session. -/
def lookupStep (n : Nat) (entity : String) (ids : Record) : Act (World σ) (Option Record) :=
  .step fun w =>
    let s := w.session n
    let (found, c) := (s.cache entity).lookup ids
    let hits := if found.isSome then s.hits + 1 else s.hits
    (.ok found, w.putSession n { s.putCache entity c with hits })

def get (n : Nat) (entity : String) (ids : Json) : Act (World σ) (Option Record) := do
  let ids ← .ofExcept (identifiers ids)
  exclusive n entity (lookupStep n entity ids)

/-- A record that is not there is asked of `resolver` and kept unless it is empty. -/
def getOrResolve (n : Nat) (entity : String) (ids : Json)
    (resolver : Act (World σ) (Option Record)) : Act (World σ) (Option Record) := do
  let ids ← .ofExcept (identifiers ids)
  exclusive n entity do
    match ← lookupStep n entity ids with
    | some found => return some found
    | none =>
      let resolved ← resolver
      let kept := resolved.toList.filter fun r => !r.isEmpty
      change n entity fun c => .ok ((), c.add kept)
      return resolved

/-- Stores values and gives them back. -/
def setIn (n : Nat) (entity : String) (values : Json) : Act (World σ) Json :=
  exclusive n entity (change n entity fun c => do return (values, ← c.set values))

def updateIn (n : Nat) (entity : String) (ids values : Json) : Act (World σ) Json :=
  exclusive n entity (change n entity fun c => do return (values, ← c.update ids values))

def patchIn (n : Nat) (entity : String) (ids delta : Json) : Act (World σ) (Option Record) :=
  exclusive n entity (change n entity fun c => c.patch ids delta)

def invalidateIn (n : Nat) (entity : String) (ids : Json) : Act (World σ) Nat :=
  exclusive n entity (change n entity fun c => c.invalidate ids)

def lengthOf (n : Nat) (entity : String) : Act (World σ) Nat := do
  return (← exclusive n entity (look n entity)).entries.length

end DataAccess.Cache
