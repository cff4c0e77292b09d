/-! Powers of the two bases in which numbers are written here. -/
namespace DataAccess

/-- Two to the power `k`. -/
def pow2 (k : Nat) : Nat := Nat.pow 2 k

/-- Ten to the power `k`. -/
def pow10 (k : Nat) : Nat := Nat.pow 10 k

end DataAccess
