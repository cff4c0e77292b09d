import DataAccess.Proofs.Filter.Truth
import DataAccess.Proofs.Sql.Writing

/-!
The meaning of a clause as SQL reads it: what is in parentheses first, then AND, then OR. A clause
that is written for some condition trees holds just when all of the trees do.
-/
namespace DataAccess
namespace Clause

/-- What has been read between two parentheses: whether one of the disjuncts before the last holds,
and whether the last one does, as far as it has been read. -/
structure Level where
  settled : Bool := false
  pending : Bool := true
  deriving DecidableEq

def Level.value (l : Level) : Bool := l.settled || l.pending

/-- A reader of a clause, which goes through its tokens once and from left to right. -/
structure Reader where
  /-- Number of the next comparison. -/
  next : Nat := 0
  level : Level := {}
  /-- The levels around this one, the innermost first. -/
  outer : List Level := []
  /-- Whether an operand has to come, and not an operator. -/
  wanting : Bool := true
  deriving DecidableEq

namespace Reader

def operand (r : Reader) (b : Bool) : Option Reader :=
  if r.wanting then
    some { r with level := { r.level with pending := r.level.pending && b }, wanting := false }
  else none

/-- One token. Tokens out of place stop the reader. -/
def step (truth : Nat → Bool) (r : Reader) : ClauseToken → Option Reader
  | .atom _ => { r with next := r.next + 1 }.operand (truth r.next)
  | .constant b => r.operand b
  | .opening =>
    if r.wanting then some { r with level := {}, outer := r.level :: r.outer } else none
  | .closing =>
    match r.wanting, r.outer with
    | false, level :: outer => { r with level, outer, wanting := true }.operand r.level.value
    | _, _ => none
  | .operator .and => if r.wanting then none else some { r with wanting := true }
  | .operator .or =>
    if r.wanting then none
    else some { r with level := { settled := r.level.value }, wanting := true }

def read (truth : Nat → Bool) (r : Reader) (c : Clause) : Option Reader := c.foldlM (step truth) r

def result? (r : Reader) : Option Bool :=
  if r.outer.isEmpty && !r.wanting then some r.level.value else none

def past (r : Reader) (b : Bool) (n : Nat) : Reader :=
  { r with
    next := n
    level := { r.level with pending := r.level.pending && b }
    wanting := false }

end Reader

/-- Whether a clause holds, if it can be read. Its comparisons are numbered from left to right. -/
def value? (truth : Nat → Bool) (c : Clause) : Option Bool :=
  (Reader.read truth {} c).bind Reader.result?

/-- AND goes before OR, on both sides. -/
example (truth : Nat → Bool) :
    value? truth [.atom [], .operator .or, .atom [], .operator .and, .atom []] =
      some (truth 0 || truth 1 && truth 2) ∧
    value? truth [.atom [], .operator .and, .atom [], .operator .or, .atom []] =
      some (truth 0 && truth 1 || truth 2) := by
  exact ⟨rfl, rfl⟩

def atoms (c : Clause) : List Sql :=
  c.filterMap fun t =>
    match t with
    | .atom s => some s
    | _ => none

namespace Reader
variable {truth : Nat → Bool}

theorem read_append (r : Reader) (a b : Clause) :
    r.read truth (a ++ b) = (r.read truth a).bind fun s => s.read truth b :=
  List.foldlM_append

theorem read_cons (r : Reader) (t : ClauseToken) (c : Clause) :
    r.read truth (t :: c) = (r.step truth t).bind fun s => s.read truth c :=
  List.foldlM_cons

theorem read_nil (r : Reader) : r.read truth [] = some r := rfl

end Reader

/-- The tokens are one operand with the comparisons from `n` up to `m`, and it holds if `b` is
true. -/
def IsOperand (truth : Nat → Bool) (n : Nat) (c : Clause) (b : Bool) (m : Nat) : Prop :=
  ∀ r : Reader, r.wanting = true → r.next = n → r.read truth c = some (r.past b m)

/-- Operands one after the other, and which of them hold. -/
inductive AreOperands (truth : Nat → Bool) : Nat → List Clause → List Bool → Nat → Prop
  | nil (n : Nat) : AreOperands truth n [] [] n
  | cons {n m k : Nat} {c : Clause} {b : Bool} {cs : List Clause} {bs : List Bool} :
    IsOperand truth n c b m → AreOperands truth m cs bs k →
      AreOperands truth n (c :: cs) (b :: bs) k

variable {truth : Nat → Bool}

theorem isOperand_atom (n : Nat) (s : Sql) :
    IsOperand truth n [.atom s] (truth n) (n + 1) := by
  rintro r hw rfl
  simp [Reader.read_cons, Reader.read_nil, Reader.step, Reader.operand, Reader.past, hw]

theorem isOperand_constant (n : Nat) (b : Bool) : IsOperand truth n [.constant b] b n := by
  rintro r hw rfl
  simp [Reader.read_cons, Reader.read_nil, Reader.step, Reader.operand, Reader.past, hw]

/-- Operands with AND between them make their disjunct hold if all of them hold. -/
theorem read_joined_and {n m : Nat} {cs : List Clause} {bs : List Bool}
    (h : AreOperands truth n cs bs m) (hne : cs ≠ []) (r : Reader) (hw : r.wanting = true)
    (hn : r.next = n) :
    r.read truth (joined .and cs) = some (r.past (Operator.and.holds bs) m) := by
  induction h generalizing r with
  | nil n => exact absurd rfl hne
  | @cons n m k c b cs bs hc hcs ih =>
    cases hcs with
    | nil => simpa [joined] using hc r hw hn
    | @cons _ m' _ d b' cs bs hd hcs =>
      have rest := ih (by simp) { r.past b m with wanting := true } rfl rfl
      rw [joined, Reader.read_append, hc r hw hn]
      · simp only [Option.bind_some, Reader.read_cons, Reader.step, Reader.past] at rest ⊢
        simpa [Bool.and_assoc] using rest
      · simp

/-- Operands with OR between them are disjuncts of their level. -/
theorem read_joined_or {n m : Nat} {cs : List Clause} {bs : List Bool}
    (h : AreOperands truth n cs bs m) (hne : cs ≠ []) (r : Reader) (hw : r.wanting = true)
    (hn : r.next = n) (hp : r.level.pending = true) :
    ∃ level, r.read truth (joined .or cs) =
        some { r with next := m, level, wanting := false } ∧
      level.value = (r.level.settled || Operator.or.holds bs) := by
  induction h generalizing r with
  | nil n => exact absurd rfl hne
  | @cons n m k c b cs bs hc hcs ih =>
    cases hcs with
    | nil =>
      refine ⟨(r.past b m).level, by simpa [joined, Reader.past] using hc r hw hn, ?_⟩
      simp [Level.value, Reader.past, hp]
    | @cons _ m' _ d b' cs bs hd hcs =>
      -- at the OR, what has been read of the level is settled
      have hs : (r.past b m).level.value = (r.level.settled || b) := by
        simp [Level.value, Reader.past, hp]
      obtain ⟨level, hl, hv⟩ := ih (by simp)
        { r.past b m with level := { settled := (r.past b m).level.value }, wanting := true }
        rfl rfl rfl
      refine ⟨level, ?_, by rw [hv, hs]; simp [Bool.or_assoc]⟩
      rw [joined, Reader.read_append, hc r hw hn]
      · simpa [Reader.read_cons, Reader.step, Reader.past] using hl
      · simp

/-- Operands with one operator between them, at a level of their own. -/
theorem read_joined {n m : Nat} {o : Operator} {cs : List Clause} {bs : List Bool}
    (h : AreOperands truth n cs bs m) (hne : cs ≠ []) (r : Reader) (hw : r.wanting = true)
    (hn : r.next = n) (hl : r.level = {}) :
    ∃ level, r.read truth (joined o cs) =
        some { r with next := m, level, wanting := false } ∧ level.value = o.holds bs := by
  cases o with
  | and =>
    refine ⟨_, read_joined_and h hne r hw hn, ?_⟩
    simp [Level.value, hl]
  | or =>
    obtain ⟨level, hr, hv⟩ := read_joined_or h hne r hw hn (by rw [hl])
    exact ⟨level, hr, by rw [hv, hl]; rfl⟩

/-- What stands in parentheses is one operand. -/
theorem isOperand_enclosed {n m : Nat} {o : Operator} {cs : List Clause} {bs : List Bool}
    (h : AreOperands truth n cs bs m) (hne : cs ≠ []) :
    IsOperand truth n (enclosed o cs) (o.holds bs) m := by
  rintro r hw rfl
  obtain ⟨level, hr, hv⟩ := read_joined (o := o) h hne
    ⟨r.next, {}, r.level :: r.outer, true⟩ rfl rfl rfl
  simp only [enclosed, List.cons_append, Reader.read_cons, Reader.step, hw, if_true,
    Option.bind_some]
  rw [Reader.read_append, hr]
  simp [Reader.read_cons, Reader.read_nil, Reader.step, Reader.operand, Reader.past, hv]

theorem isOperand_nested {n m : Nat} (o : Operator) {cs : List Clause} {bs : List Bool}
    (h : AreOperands truth n cs bs m) : IsOperand truth n (nested o cs) (o.holds bs) m := by
  cases h with
  | nil n => simpa [nested] using isOperand_constant n (decide (o = .and))
  | cons hc hcs => exact isOperand_enclosed (.cons hc hcs) (by simp)

/-- Terms that hold together make one operand. -/
theorem isOperand_top {n m : Nat} {cs : List Clause} {bs : List Bool}
    (h : AreOperands truth n cs bs m) {c : Clause} (hc : top cs = some c) :
    IsOperand truth n c (Operator.and.holds bs) m := by
  cases h with
  | nil n => contradiction
  | cons hd hcs =>
    cases hcs with
    | nil m =>
      cases hc
      simpa using hd
    | cons he hcs =>
      cases hc
      exact isOperand_enclosed (.cons hd (.cons he hcs)) (by simp)

mutual
/-- The tokens of a tree are one operand, which holds if the tree does. -/
theorem isOperand_ofCondition {d : Dialect} {table : String} (c : Condition) {part : Clause}
    (h : ofCondition d table c = .ok part) (n : Nat) :
    IsOperand truth n part (c.holds truth n) (n + c.leaves.length) := by
  cases c with
  | leaf column comparer operand =>
    obtain ⟨s, -, rfl⟩ := map_eq_ok.mp h
    exact isOperand_atom n s
  | group o children =>
    obtain ⟨parts, hp, rfl⟩ := map_eq_ok.mp h
    exact isOperand_nested o (areOperands_ofConditions children hp n)

theorem areOperands_ofConditions {d : Dialect} {table : String} (cs : List Condition)
    {parts : List Clause} (h : ofConditions d table cs = .ok parts) (n : Nat) :
    AreOperands truth n parts (Condition.truths truth n cs)
      (n + (Condition.leavesOf cs).length) := by
  cases cs with
  | nil =>
    cases h
    exact .nil n
  | cons c rest =>
    obtain ⟨part, hp, h⟩ := bind_eq_ok.mp h
    obtain ⟨parts, hps, h⟩ := bind_eq_ok.mp h
    cases h
    have hrest := areOperands_ofConditions rest hps (n + c.leaves.length)
    rw [Nat.add_assoc, ← List.length_append] at hrest
    exact .cons (isOperand_ofCondition c hp n) hrest
end

theorem value?_of_isOperand {c : Clause} {b : Bool} {m : Nat}
    (h : IsOperand truth 0 c b m) : value? truth c = some b := by
  rw [value?, h {} rfl rfl]
  simp [Reader.result?, Reader.past, Level.value]

theorem atoms_append (a b : Clause) : atoms (a ++ b) = atoms a ++ atoms b :=
  List.filterMap_append

theorem atoms_joined (o : Operator) (cs : List Clause) :
    atoms (joined o cs) = cs.flatMap atoms := by
  induction cs using joined.induct with
  | case1 => rfl
  | case2 c => simp [joined]
  | case3 c cs hne ih =>
    rw [joined, atoms_append, List.flatMap_cons, ← ih]
    · rfl
    · exact hne

theorem atoms_enclosed (o : Operator) (cs : List Clause) :
    atoms (enclosed o cs) = cs.flatMap atoms := by
  rw [← atoms_joined o cs, ← List.append_nil (atoms (joined o cs))]
  exact atoms_append (.opening :: joined o cs) [.closing]

theorem atoms_nested (o : Operator) (cs : List Clause) :
    atoms (nested o cs) = cs.flatMap atoms := by
  cases cs with
  | nil => rfl
  | cons c cs => exact atoms_enclosed o (c :: cs)

theorem atoms_top {cs : List Clause} {c : Clause} (h : top cs = some c) :
    atoms c = cs.flatMap atoms := by
  unfold top at h
  split at h
  · contradiction
  · cases h
    simp
  · cases h
    exact atoms_enclosed .and _

def written (d : Dialect) (table : String) (x : Comparison) : Except Error Sql :=
  d.leaf table x.column x.comparer x.operand

mutual
theorem atoms_ofCondition {d : Dialect} {table : String} (c : Condition) {part : Clause}
    (h : ofCondition d table c = .ok part) :
    c.leaves.map (written d table) = part.atoms.map .ok := by
  cases c with
  | leaf column comparer operand =>
    obtain ⟨s, hs, rfl⟩ := map_eq_ok.mp h
    exact congrArg ([·]) hs
  | group o children =>
    obtain ⟨parts, hp, rfl⟩ := map_eq_ok.mp h
    rw [atoms_nested]
    exact atoms_ofConditions children hp

theorem atoms_ofConditions {d : Dialect} {table : String} (cs : List Condition)
    {parts : List Clause} (h : ofConditions d table cs = .ok parts) :
    (Condition.leavesOf cs).map (written d table) = (parts.flatMap atoms).map .ok := by
  cases cs with
  | nil =>
    cases h
    rfl
  | cons c rest =>
    obtain ⟨part, hp, h⟩ := bind_eq_ok.mp h
    obtain ⟨parts, hps, h⟩ := bind_eq_ok.mp h
    cases h
    have hc := atoms_ofCondition c hp
    have hrest := atoms_ofConditions rest hps
    simp only [Condition.leavesOf, List.map_append, List.flatMap_cons, hc, hrest]
end

theorem length_ofConditions {d : Dialect} {table : String} {cs : List Condition}
    {parts : List Clause} (h : ofConditions d table cs = .ok parts) :
    parts.length = cs.length := by
  induction cs generalizing parts with
  | nil =>
    cases h
    rfl
  | cons c rest ih =>
    obtain ⟨part, -, h⟩ := bind_eq_ok.mp h
    obtain ⟨parts, hps, h⟩ := bind_eq_ok.mp h
    cases h
    simp [ih hps]

theorem top_eq_none {cs : List Clause} : top cs = none ↔ cs = [] := by
  unfold top
  split <;> simp_all

end Clause

namespace ClauseToken

/-- The text of a token, when the next placeholder has number `n`. -/
def text (n : Nat) : ClauseToken → String
  | .atom s => s.textFrom n
  | .constant b => if b then "TRUE" else "FALSE"
  | .opening => "("
  | .closing => ")"
  | .operator .and => " AND "
  | .operator .or => " OR "

theorem textFrom_sql (t : ClauseToken) (n : Nat) : t.sql.textFrom n = t.text n := by
  cases t with
  | atom s => rfl
  | constant b => cases b <;> simp [sql, text]
  | opening | closing => simp [sql, text]
  | operator o => cases o <;> simp [sql, text, Operator.sql]

end ClauseToken

/-- The text of a clause is that of its tokens, each of which is written by itself. So the
parentheses between the comparisons are the tokens that are parentheses. -/
theorem Clause.textFrom_sql (c : Clause) (n : Nat) :
    c.sql.textFrom n =
      String.join (c.mapIdx fun i t => t.text (n + (sql (c.take i)).params.length)) := by
  induction c generalizing n with
  | nil => rfl
  | cons t c ih =>
    -- the tokens behind the first one start at the number that it leaves free
    have next (i : Nat) : n + t.sql.params.length + (sql (c.take i)).params.length =
        n + (sql ((t :: c).take (i + 1))).params.length := by
      change _ = n + (t.sql ++ sql (c.take i)).params.length
      rw [Sql.params_append, List.length_append, Nat.add_assoc]
    have parted : (sql (t :: c)).textFrom n =
        t.text n ++ (sql c).textFrom (n + t.sql.params.length) := by
      rw [← t.textFrom_sql]
      exact Sql.textFrom_append n t.sql (sql c)
    rw [parted, ih, List.mapIdx_cons, String.join_cons]
    simp only [next]
    rfl

/-- A clause for condition trees is there unless there are no trees. Its comparisons are those of
the trees from left to right, and whichever of them hold, the clause as SQL reads it holds just
when all trees do. WHERE, HAVING and the condition of a join are written with it. -/
theorem clause_reads_as_terms {d : Dialect} {table : String} {terms : List Condition}
    {clause : Option Clause} (h : Clause.ofTerms d table terms = .ok clause) :
    (clause = none ↔ terms = []) ∧
      (∀ c ∈ clause,
        (Condition.leavesOf terms).map (Clause.written d table) = c.atoms.map .ok ∧
          ∀ truth, c.value? truth = some (Condition.allHold truth terms)) ∧
      (∀ word, d.guarded word table terms =
        .ok (clause.elim [] fun c => .text (" " ++ word ++ " ") :: c.sql)) ∧
      (∀ main (join : Join), join.table = table → join.conditions = some terms →
        d.joinCondition main join =
          clause.elim (.error (.invalidJoin (.noConditions table))) fun c => .ok c.sql) ∧
      (∀ word, Compiler.guarded d word table terms =
        Sql.write (clause.elim [] fun c => .text (" " ++ word ++ " ") :: c.sql)) ∧
      ∀ main (join : Join), join.table = table → join.conditions = some terms →
        Compiler.joinCondition d (d.naming.storageName main) join =
          clause.elim (throw (.invalidJoin (.noConditions table))) fun c => c.sql.write := by
  obtain ⟨parts, hp, rfl⟩ := map_eq_ok.mp h
  have guarded (word : String) : d.guarded word table terms =
      .ok ((Clause.top parts).elim [] fun c => .text (" " ++ word ++ " ") :: c.sql) := by
    rw [Dialect.guarded, h]
    cases Clause.top parts <;> rfl
  have joined : ∀ main (join : Join), join.table = table → join.conditions = some terms →
      d.joinCondition main join = (Clause.top parts).elim
        (.error (.invalidJoin (.noConditions table))) fun c => .ok c.sql := by
    rintro main join rfl hj
    rw [Dialect.joinCondition, hj]
    simp only [h]
    cases Clause.top parts <;> rfl
  refine ⟨?_, fun c hc => ⟨?_, fun truth => ?_⟩, guarded, joined, fun word => ?_, ?_⟩
  · rw [Clause.top_eq_none, ← List.length_eq_zero_iff, Clause.length_ofConditions hp,
      List.length_eq_zero_iff]
  · rw [Clause.atoms_top hc]
    exact Clause.atoms_ofConditions terms hp
  · exact Clause.value?_of_isOperand (Clause.isOperand_top
      (Clause.areOperands_ofConditions terms hp 0) hc)
  · rw [Compiler.guarded_eq, guarded word]
    rfl
  · intro main join named given
    rw [Compiler.joinCondition_eq, joined main join named given]
    cases Clause.top parts <;> rfl

/-- The AND inside the OR keeps its parentheses, and the empty OR inside it never holds. -/
theorem clause_reads_as_nested_terms :
    let d := ({} : Config).dialect []
    let terms : List Condition :=
      [.group .or [.leaf "role" .eq (.value (.string "admin")),
        .group .and [.leaf "age" .gte (.value (.ofInt 18)), .group .or []]],
        .leaf "deletedAt" .eq (.value .null)]
    let clause : Clause :=
      [.opening, .opening, .atom [.text "\"role\" = ", .hole (.string "admin")], .operator .or,
        .opening, .atom [.text "\"age\" >= ", .hole (.ofInt 18)], .operator .and,
        .constant false, .closing, .closing, .operator .and,
        .atom [.text "\"deleted_at\" IS NULL"], .closing]
    Clause.ofTerms d "users" terms = .ok (some clause) ∧
      clause.sql.compiled.sql =
        "((\"role\" = $1 OR (\"age\" >= $2 AND FALSE)) AND \"deleted_at\" IS NULL)" ∧
      ∀ truth, clause.value? truth = some ((truth 0 || truth 1 && false) && truth 2) := by
  intro d terms clause
  have written : Clause.ofTerms d "users" terms = .ok (some clause) :=
    eq_ok_of_toOption (by decide +kernel)
  obtain ⟨-, holds, -⟩ := clause_reads_as_terms written
  refine ⟨written, by decide +kernel, fun truth => ?_⟩
  rw [(holds clause rfl).2 truth]
  simp [terms, Condition.allHold, Condition.truths, Condition.holds, Condition.leaves,
    Condition.leavesOf]

end DataAccess
