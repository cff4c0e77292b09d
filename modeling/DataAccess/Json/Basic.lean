import DataAccess.Assoc
import DataAccess.Number.Double

/-! JSON values. The fields of an object keep their order. -/
namespace DataAccess

/-- A whole number stays apart from the floating-point number of the same size. -/
inductive Json.Number where
  | whole (i : Int)
  | float (x : Double)
  deriving DecidableEq, Repr

inductive Json where
  | null
  | bool (b : Bool)
  | number (n : Json.Number)
  | string (s : String)
  | array (items : List Json)
  | object (fields : List (String × Json))
  deriving Repr, Inhabited

/-- A row of a table, or an application record. -/
abbrev Record := List (String × Json)

namespace Json

mutual
def decEq : (a b : Json) → Decidable (a = b)
  | .null, .null => isTrue rfl
  | .bool a, .bool b => if h : a = b then isTrue (h ▸ rfl) else isFalse fun e => h (bool.inj e)
  | .number a, .number b =>
    if h : a = b then isTrue (h ▸ rfl) else isFalse fun e => h (number.inj e)
  | .string a, .string b =>
    if h : a = b then isTrue (h ▸ rfl) else isFalse fun e => h (string.inj e)
  | .array a, .array b =>
    match decEqItems a b with
    | isTrue h => isTrue (h ▸ rfl)
    | isFalse h => isFalse fun e => h (array.inj e)
  | .object a, .object b =>
    match decEqFields a b with
    | isTrue h => isTrue (h ▸ rfl)
    | isFalse h => isFalse fun e => h (object.inj e)
  | .null, .bool _ | .null, .number _ | .null, .string _ | .null, .array _
  | .null, .object _ => isFalse nofun
  | .bool _, .null | .bool _, .number _ | .bool _, .string _ | .bool _, .array _
  | .bool _, .object _ => isFalse nofun
  | .number _, .null | .number _, .bool _ | .number _, .string _ | .number _, .array _
  | .number _, .object _ => isFalse nofun
  | .string _, .null | .string _, .bool _ | .string _, .number _ | .string _, .array _
  | .string _, .object _ => isFalse nofun
  | .array _, .null | .array _, .bool _ | .array _, .number _ | .array _, .string _
  | .array _, .object _ => isFalse nofun
  | .object _, .null | .object _, .bool _ | .object _, .number _ | .object _, .string _
  | .object _, .array _ => isFalse nofun
termination_by structural a => a

def decEqItems : (a b : List Json) → Decidable (a = b)
  | [], [] => isTrue rfl
  | [], _ :: _ | _ :: _, [] => isFalse nofun
  | x :: xs, y :: ys =>
    match decEq x y, decEqItems xs ys with
    | isTrue h, isTrue k => isTrue (h ▸ k ▸ rfl)
    | isFalse h, _ => isFalse fun e => h (List.cons.inj e).1
    | _, isFalse h => isFalse fun e => h (List.cons.inj e).2
termination_by structural a => a

def decEqFields : (a b : List (String × Json)) → Decidable (a = b)
  | [], [] => isTrue rfl
  | [], _ :: _ | _ :: _, [] => isFalse nofun
  | (k, x) :: xs, (l, y) :: ys =>
    if h : k = l then
      match decEq x y, decEqFields xs ys with
      | isTrue hx, isTrue hs => isTrue (h ▸ hx ▸ hs ▸ rfl)
      | isFalse hx, _ => isFalse fun e => hx (Prod.mk.inj (List.cons.inj e).1).2
      | _, isFalse hs => isFalse fun e => hs (List.cons.inj e).2
    else isFalse fun e => h (Prod.mk.inj (List.cons.inj e).1).1
termination_by structural a => a
end

instance : DecidableEq Json := decEq

def Number.same : Number → Number → Bool
  | .whole i, .whole j => i == j
  | .float x, .float y => x.same y
  | _, _ => false

mutual
/-- Equality of data: the order of fields does not matter, nor the sign of a floating zero. -/
def same : Json → Json → Bool
  | .null, .null => true
  | .bool a, .bool b => a == b
  | .number a, .number b => a.same b
  | .string a, .string b => a == b
  | .array a, .array b => sameItems a b
  | .object a, .object b => a.length == b.length && sameFields a b
  | _, _ => false
termination_by structural a => a

def sameItems : List Json → List Json → Bool
  | [], [] => true
  | x :: xs, y :: ys => same x y && sameItems xs ys
  | _, _ => false
termination_by structural a => a

def sameFields : List (String × Json) → List (String × Json) → Bool
  | [], _ => true
  | (k, x) :: xs, fields =>
    (match Assoc.get? fields k with
    | some y => same x y
    | none => false) && sameFields xs fields
termination_by structural a => a
end

def text? : Json → Option String
  | .string s => some s
  | _ => none

def isNull : Json → Bool
  | .null => true
  | _ => false

def items? : Json → Option (List Json)
  | .array items => some items
  | _ => none

def fields? : Json → Option Record
  | .object fields => some fields
  | _ => none

/-- A whole number that a signed word of 64 bits holds. -/
def signed? : Json → Option Int
  | .number (.whole i) => if -(pow2 63 : Int) ≤ i && i < pow2 63 then some i else none
  | _ => none

/-- A whole number that an unsigned word of 64 bits holds. -/
def word? : Json → Option UInt64
  | .number (.whole i) => if 0 ≤ i && i < pow2 64 then some (UInt64.ofNat i.toNat) else none
  | _ => none

def double? : Json → Option Double
  | .number (.whole i) => some (Double.ofInt i)
  | .number (.float x) => some x
  | _ => none

def ofInt (i : Int) : Json := .number (.whole i)

def ofOption (f : α → Json) : Option α → Json
  | some a => f a
  | none => .null

end Json
end DataAccess
