/-! Numbers written in digits of some base. -/
namespace DataAccess.Digits

/-- The value of a digit; letters of either case follow nine. -/
def value? (c : Char) : Option Nat :=
  if c.isDigit then some (c.toNat - 48)
  else if 'a' ≤ c && c ≤ 'f' then some (c.toNat - 87)
  else if 'A' ≤ c && c ≤ 'F' then some (c.toNat - 55)
  else none

def isIn (base : Nat) (c : Char) : Bool := (value? c).any (· < base)

/-- The number that a row of digits stands for; an empty row is zero. -/
def inBase (base : Nat) (digits : List Char) : Nat :=
  digits.foldl (fun n c => n * base + (value? c).getD 0) 0

/-- Decimal digits, at least one, with an optional plus; the number is below the limit. -/
def unsigned? (limit : Nat) (s : List Char) : Option Nat :=
  let ds := match s with
    | '+' :: ds => ds
    | ds => ds
  let n := inBase 10 ds
  if !ds.isEmpty && ds.all Char.isDigit && n < limit then some n else none

end DataAccess.Digits
