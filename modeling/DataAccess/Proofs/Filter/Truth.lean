import DataAccess.Filter.Basic

/-!
The truth of condition trees. The comparisons of a tree are numbered from left to right, so that
two equal comparisons may still differ in truth; the truth of all groups follows from theirs.
-/
namespace DataAccess

/-- A group under AND holds if all its children hold, one under OR if some child holds. -/
def Operator.holds : Operator → List Bool → Bool
  | .and, children => children.all id
  | .or, children => children.any id

namespace Operator

/-- A group without children is the constant that its operator leaves unchanged. -/
@[simp] theorem holds_nil (o : Operator) : o.holds [] = decide (o = .and) := by
  cases o <;> rfl

@[simp] theorem holds_singleton (o : Operator) (b : Bool) : o.holds [b] = b := by
  cases o <;> simp [holds]

@[simp] theorem holds_and_cons (b : Bool) (bs : List Bool) :
    Operator.and.holds (b :: bs) = (b && Operator.and.holds bs) := rfl

@[simp] theorem holds_or_cons (b : Bool) (bs : List Bool) :
    Operator.or.holds (b :: bs) = (b || Operator.or.holds bs) := rfl

end Operator

namespace Condition

mutual
/-- Whether a tree holds. Its first comparison has number `n`. -/
def holds (truth : Nat → Bool) (n : Nat) : Condition → Bool
  | .leaf .. => truth n
  | .group o children => o.holds (truths truth n children)
termination_by structural c => c

def truths (truth : Nat → Bool) (n : Nat) : List Condition → List Bool
  | [] => []
  | c :: rest => holds truth n c :: truths truth (n + c.leaves.length) rest
termination_by structural cs => cs
end

def allHold (truth : Nat → Bool) (terms : List Condition) : Bool :=
  Operator.and.holds (truths truth 0 terms)

end Condition
end DataAccess
