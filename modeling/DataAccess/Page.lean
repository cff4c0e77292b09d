import DataAccess.Json.Basic

/-! Windows of a result, and the pages they show. -/
namespace DataAccess

/-- Rows to skip and rows to return. -/
structure Window where
  offset : UInt64
  limit : UInt64
  deriving DecidableEq, Repr

def largestPage : UInt64 := 100

/-- The result of a calculation as a word. One that no word holds is an overflow. -/
def fitting (n : Nat) : Option UInt64 := if n < UInt64.size then some (.ofNat n) else none

/-- The window of a page counted from one, unless its place is an overflow; the size of a page is
kept within bounds. -/
def Window.ofPage (page perPage : UInt64) : Option Window := do
  let size := min (max perPage 1) largestPage
  return ⟨← fitting ((max page 1 - 1).toNat * size.toNat), size⟩

/-- A window as an object, whose limit has a second name, or as a list of both numbers. -/
def Window.ofJson? : Json → Option Window
  | .array [offset, limit] => do return ⟨← offset.word?, ← limit.word?⟩
  | .object fields => do
    let offset ←
      match Assoc.get? fields "offset" with
      | some v => v.word?
      | none => some 0
    match Assoc.get? fields "limit", Assoc.get? fields "count" with
    | some v, none | none, some v => return ⟨offset, ← v.word?⟩
    | _, _ => none
  | _ => none

def Window.toJson (w : Window) : Json :=
  .object [("offset", .ofInt w.offset.toNat), ("limit", .ofInt w.limit.toNat)]

/-- The part of a result that a window shows, and the size of the whole result. -/
structure Page (α : Type) where
  total : Int
  items : List α
  deriving DecidableEq

/-- Whether rows follow the window, unless the place after the items is an overflow. -/
def Page.hasMore (p : Page α) (w : Window) : Option Bool := do
  let next ← fitting (w.offset.toNat + p.items.length)
  return (next.toNat : Int) < max p.total 0

def Page.toJson (encode : α → Json) (p : Page α) : Json :=
  .object [("total", .ofInt p.total), ("items", .array (p.items.map encode))]

end DataAccess
