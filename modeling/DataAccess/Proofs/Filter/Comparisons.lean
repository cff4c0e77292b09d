import DataAccess.Proofs.Filter.Meaning

/-!
The comparisons of a filter in the order in which it is written. The terms that are read from the
filter make just these, and the two readings of a filter differ in the right sides alone.
-/
namespace DataAccess.Condition

mutual
def columnComparisons (column : String) : Json → List Comparison
  | .object fields => comparerComparisons column fields
  | v => [⟨column, .eq, .value v⟩]
termination_by structural v => v

def comparerComparisons (column : String) : List (String × Json) → List Comparison
  | [] => []
  | (key, v) :: rest =>
    (match Comparer.ofKeyword? key, Operator.ofKeyword? key with
    | some comparer, _ => [⟨column, comparer, .value v⟩]
    | none, some _ => choiceComparisons column v
    | none, none => []) ++ comparerComparisons column rest
termination_by structural fields => fields

def choiceComparisons (column : String) : Json → List Comparison
  | .object fields => comparerComparisons column fields
  | .array items => columnItemComparisons column items
  | _ => []
termination_by structural v => v

def columnItemComparisons (column : String) : List Json → List Comparison
  | [] => []
  | v :: rest => columnComparisons column v ++ columnItemComparisons column rest
termination_by structural items => items
end

def entryComparisons (key : String) (v : Json) : List Comparison :=
  match Comparer.ofKeyword? key, v with
  | some comparer, .object fields => fields.map fun e => ⟨e.1, comparer, .value e.2⟩
  | _, v => columnComparisons key v

mutual
/-- The comparisons of a filter from its beginning to its end. -/
def comparisonsOf : Json → List Comparison
  | .object fields => fieldComparisons fields
  | .array items => itemComparisons items
  | _ => []
termination_by structural v => v

def fieldComparisons : List (String × Json) → List Comparison
  | [] => []
  | (key, v) :: rest =>
    (match Operator.ofKeyword? key with
    | some _ => comparisonsOf v
    | none => entryComparisons key v) ++ fieldComparisons rest
termination_by structural fields => fields

def itemComparisons : List Json → List Comparison
  | [] => []
  | v :: rest => comparisonsOf v ++ itemComparisons rest
termination_by structural items => items
end

mutual
theorem leaves_columnTree (column : String) (v : Json) :
    (columnTree .values column v).leaves = columnComparisons column v := by
  cases v with
  | object fields => exact leaves_columnTrees column fields
  | null | bool | number | string | array => rfl

theorem leaves_columnTrees (column : String) (fields : List (String × Json)) :
    leavesOf (columnTrees .values column fields) = comparerComparisons column fields := by
  cases fields with
  | nil => rfl
  | cons e rest =>
    obtain ⟨key, v⟩ := e
    rw [columnTrees, leavesOf, comparerComparisons, leaves_columnTrees column rest]
    congr 1
    cases Comparer.ofKeyword? key with
    | some comparer => rfl
    | none =>
      cases Operator.ofKeyword? key with
      | some o => exact leaves_columnParts column v
      | none => rfl

theorem leaves_columnParts (column : String) (v : Json) :
    leavesOf (columnParts .values column v) = choiceComparisons column v := by
  cases v with
  | object fields => exact leaves_columnTrees column fields
  | array items => exact leaves_columnItemTrees column items
  | null | bool | number | string => rfl

theorem leaves_columnItemTrees (column : String) (items : List Json) :
    leavesOf (columnItemTrees .values column items) = columnItemComparisons column items := by
  cases items with
  | nil => rfl
  | cons v rest =>
    rw [columnItemTrees, leavesOf, columnItemComparisons, leaves_columnTree column v,
      leaves_columnItemTrees column rest]
end

theorem leavesOf_map_leaf {α : Type} (xs : List α) (f : α → Comparison) :
    leavesOf (xs.map fun a => .leaf (f a).column (f a).comparer (f a).operand) = xs.map f := by
  induction xs with
  | nil => rfl
  | cons a xs ih => simp [leavesOf, leaves, ih]

theorem leaves_entryTree (key : String) (v : Json) :
    (entryTree .values key v).leaves = entryComparisons key v := by
  unfold entryTree entryComparisons
  cases Comparer.ofKeyword? key with
  | none => exact leaves_columnTree key v
  | some comparer =>
    cases v with
    | object fields => exact leavesOf_map_leaf fields fun e => ⟨e.1, comparer, .value e.2⟩
    | null | bool | number | string | array => exact leaves_columnTree key _

mutual
theorem leaves_parts (v : Json) : leavesOf (parts .values v) = comparisonsOf v := by
  cases v with
  | object fields => exact leaves_entryTrees fields
  | array items => exact leaves_itemTrees items
  | null | bool | number | string => rfl

theorem leaves_entryTrees (fields : List (String × Json)) :
    leavesOf (entryTrees .values fields) = fieldComparisons fields := by
  cases fields with
  | nil => rfl
  | cons e rest =>
    obtain ⟨key, v⟩ := e
    rw [entryTrees, leavesOf, fieldComparisons, leaves_entryTrees rest]
    congr 1
    cases Operator.ofKeyword? key with
    | some o => exact leaves_parts v
    | none => exact leaves_entryTree key v

theorem leaves_itemTrees (items : List Json) :
    leavesOf (itemTrees .values items) = itemComparisons items := by
  cases items with
  | nil => rfl
  | cons v rest =>
    rw [itemTrees, leavesOf, itemComparisons, leaves_itemTrees rest]
    congr 1
    exact leaves_parts v
end

/-- Nothing of a filter is lost on the way to its terms, and nothing is made twice or moved. -/
theorem leaves_terms {filter : Json} {ts : List Condition} (h : terms .values filter = .ok ts) :
    leavesOf ts = comparisonsOf filter := by
  have below := related_terms respected_implies filter h (.inl fun _ _ => rfl) .and (by simp)
  exact below.leaves.trans (leaves_parts filter)

def naming : Operand → Operand
  | .value (.string name) => .column name
  | operand => operand

mutual
def named : Condition → Condition
  | .leaf column comparer operand => .leaf column comparer (naming operand)
  | .group o children => .group o (allNamed children)
termination_by structural c => c

def allNamed : List Condition → List Condition
  | [] => []
  | c :: rest => named c :: allNamed rest
termination_by structural cs => cs
end

theorem allNamed_eq_map (cs : List Condition) : allNamed cs = cs.map named := by
  induction cs with
  | nil => rfl
  | cons c rest ih => rw [allNamed, ih, List.map_cons]

def CanName (xs : List Comparison) : Prop := ∀ x ∈ xs, ∃ name, x.operand = .value (.string name)

theorem canName_append {xs ys : List Comparison} : CanName (xs ++ ys) ↔ CanName xs ∧ CanName ys :=
  List.forall_mem_append

/-- The two readings of one text: where the values are fine, the columns are refused just if some
value is no text, and otherwise they stand in place of the values. -/
inductive InStep {α β : Type} (comparisons : α → List Comparison) (rename : α → β) :
    Except Error α → Except Error β → Prop
  | refused (e f : Error) : InStep comparisons rename (.error e) (.error f)
  | unnamed {a : α} (f : Error) (h : ¬ CanName (comparisons a)) :
    InStep comparisons rename (.ok a) (.error f)
  | named {a : α} (h : CanName (comparisons a)) : InStep comparisons rename (.ok a) (.ok (rename a))

namespace InStep
variable {α β γ δ : Type} {comparisons : α → List Comparison} {rename : α → β}
  {comparisons' : γ → List Comparison} {rename' : γ → δ}

/-- Steps that keep the comparisons made so far stay in step. -/
theorem bind {x : Except Error α} {y : Except Error β} {f : α → Except Error γ}
    {g : β → Except Error δ} (h : InStep comparisons rename x y)
    (keeps : ∀ a c, f a = .ok c → CanName (comparisons' c) → CanName (comparisons a))
    (next : ∀ a, CanName (comparisons a) → InStep comparisons' rename' (f a) (g (rename a))) :
    InStep comparisons' rename' (x >>= f) (y >>= g) := by
  cases h with
  | refused e e' => exact .refused e e'
  | named h => exact next _ h
  | @unnamed a e h =>
    change InStep comparisons' rename' (f a) (.error e)
    cases hf : f a with
    | error e' => exact .refused e' e
    | ok c => exact .unnamed e fun hc => h (keeps a c hf hc)

theorem map {x : Except Error α} {y : Except Error β} (h : InStep comparisons rename x y)
    {f : α → γ} {g : β → δ} (same : ∀ a, comparisons' (f a) = comparisons a)
    (renamed : ∀ a, rename' (f a) = g (rename a)) :
    InStep comparisons' rename' (x.map f) (y.map g) := by
  cases h with
  | refused e e' => exact .refused e e'
  | unnamed e h => exact .unnamed e (by rwa [same])
  | @named a h =>
    have hf : InStep comparisons' rename' (.ok (f a)) (.ok (rename' (f a))) :=
      .named (by rwa [same])
    rwa [renamed] at hf

theorem ok_iff {x : Except Error α} {y : Except Error β} (h : InStep comparisons rename x y)
    (b : β) : y = .ok b ↔ ∃ a, x = .ok a ∧ CanName (comparisons a) ∧ b = rename a := by
  cases h with
  | refused e f => simp
  | unnamed f h => simp [h]
  | named h => simp [h, eq_comm]

end InStep

theorem leavesOf_append (cs ds : List Condition) :
    leavesOf (cs ++ ds) = leavesOf cs ++ leavesOf ds := by
  induction cs with
  | nil => rfl
  | cons c cs ih => simp [leavesOf, ih]

/-- What is read of a list comes from its first element and from the others. -/
theorem InStep.followed {α β : Type} {comparisons : α → List Comparison} {rename : α → β}
    {x : Except Error α} {y : Except Error β} {xs ys : Except Error (List Condition)}
    {f : α → List Condition → List Condition} {g : β → List Condition → List Condition}
    (h : InStep comparisons rename x y) (hs : InStep leavesOf allNamed xs ys)
    (same : ∀ a cs, leavesOf (f a cs) = comparisons a ++ leavesOf cs)
    (renamed : ∀ a cs, allNamed (f a cs) = g (rename a) (allNamed cs)) :
    InStep leavesOf allNamed (do let a ← x; return f a (← xs)) (do let b ← y; return g b (← ys)) := by
  apply h.bind
  · intro a cs hcs names
    obtain ⟨rest, -, he⟩ := bind_eq_ok.mp hcs
    cases he
    rw [same] at names
    exact (canName_append.mp names).1
  · intro a ha
    apply hs.bind
    · intro cs ds he names
      cases he
      rw [same] at names
      exact (canName_append.mp names).2
    · intro cs hcs
      rw [← renamed]
      apply InStep.named
      rw [same]
      exact canName_append.mpr ⟨ha, hcs⟩

theorem inStep_cons {x y : Except Error Condition} {xs ys : Except Error (List Condition)}
    (h : InStep leaves named x y) (hs : InStep leavesOf allNamed xs ys) :
    InStep leavesOf allNamed (do let c ← x; return c :: (← xs))
      (do let c ← y; return c :: (← ys)) :=
  h.followed hs (fun _ _ => rfl) fun _ _ => rfl

theorem inStep_group (o : Operator) {xs ys : Except Error (List Condition)}
    (h : InStep leavesOf allNamed xs ys) :
    InStep leaves named (xs.map (.group o)) (ys.map (.group o)) :=
  h.map (fun _ => rfl) fun _ => rfl

theorem leaves_conjunction {ts : List Condition} {c : Condition}
    (h : conjunction ts = some c) : c.leaves = leavesOf ts :=
  (related_conjunction h).leaves

theorem leavesOf_conjunction (ts : List Condition) :
    leavesOf (conjunction ts).toList = leavesOf ts := by
  obtain _ | ⟨t, _ | ⟨u, ts⟩⟩ := ts
  · rfl
  · rfl
  · simp [conjunction, leavesOf, leaves]

theorem conjunction_allNamed (ts : List Condition) :
    conjunction (allNamed ts) = (conjunction ts).map named := by
  obtain _ | ⟨t, _ | ⟨u, ts⟩⟩ := ts <;> rfl

theorem inStep_conjunction {xs ys : Except Error (List Condition)} (e f : Error)
    (h : InStep leavesOf allNamed xs ys) :
    InStep leaves named
      (do match conjunction (← xs) with
          | some c => .ok c
          | none => .error e)
      (do match conjunction (← ys) with
          | some c => .ok c
          | none => .error f) := by
  apply h.bind
  · intro ts c hc names
    split at hc
    · cases hc
      rwa [← leaves_conjunction ‹_›]
    · contradiction
  · intro ts names
    rw [conjunction_allNamed]
    cases hc : conjunction ts with
    | none => exact .refused e f
    | some c => exact .named (by rwa [leaves_conjunction hc])

theorem inStep_comparison (column : String) (comparer : Comparer) (v : Json) :
    InStep leaves named (comparison .values column comparer v)
      (comparison .columns column comparer v) := by
  unfold comparison
  split
  · exact .refused _ _
  · cases v with
    | string name => exact .named (by simp [CanName, leaves])
    | null | bool | number | array | object => exact .unnamed _ (by simp [CanName, leaves])

theorem inStep_comparisons (comparer : Comparer) (fields : Record) :
    InStep leavesOf allNamed (comparisons .values comparer fields)
      (comparisons .columns comparer fields) := by
  induction fields with
  | nil => exact .named (by simp [CanName, leavesOf])
  | cons e rest ih => exact inStep_cons (inStep_comparison e.1 comparer e.2) ih

mutual
theorem inStep_columnTerm (column : String) (v : Json) :
    InStep leaves named (columnTerm .values column v) (columnTerm .columns column v) := by
  cases v with
  | object fields =>
    simp only [columnTerm]
    split
    · exact inStep_conjunction _ _ (inStep_columnTerms column fields)
    · exact .refused _ _
  | null | bool | number | string | array => exact inStep_comparison column .eq _

theorem inStep_columnTerms (column : String) (fields : List (String × Json)) :
    InStep leavesOf allNamed (columnTerms .values column fields)
      (columnTerms .columns column fields) := by
  cases fields with
  | nil => exact .named (by simp [CanName, leavesOf])
  | cons e rest =>
    obtain ⟨key, v⟩ := e
    have others := inStep_columnTerms column rest
    rw [columnTerms, columnTerms]
    cases Comparer.ofKeyword? key with
    | some comparer => exact inStep_cons (inStep_comparison column comparer v) others
    | none =>
      cases Operator.ofKeyword? key with
      | some o => exact inStep_cons (inStep_group o (inStep_columnGroup column key v)) others
      | none =>
        dsimp only
        split
        · exact .refused _ _
        · exact .refused _ _

theorem inStep_columnGroup (column key : String) (v : Json) :
    InStep leavesOf allNamed (columnGroup .values column key v)
      (columnGroup .columns column key v) := by
  cases v with
  | object fields => exact inStep_columnTerms column fields
  | array items => exact inStep_columnItems column items
  | null | bool | number | string => exact .refused _ _

theorem inStep_columnItems (column : String) (items : List Json) :
    InStep leavesOf allNamed (columnItems .values column items)
      (columnItems .columns column items) := by
  cases items with
  | nil => exact .named (by simp [CanName, leavesOf])
  | cons v rest => exact inStep_cons (inStep_columnTerm column v) (inStep_columnItems column rest)
end

theorem inStep_entryTerm (key : String) (v : Json) :
    InStep leaves named (entryTerm .values key v) (entryTerm .columns key v) := by
  unfold entryTerm
  cases Comparer.ofKeyword? key with
  | none =>
    dsimp only
    split
    · exact .refused _ _
    · exact inStep_columnTerm key v
  | some comparer =>
    cases v with
    | object fields => exact inStep_conjunction _ _ (inStep_comparisons comparer fields)
    | null | bool | number | string | array => exact .refused _ _

mutual
theorem inStep_terms (v : Json) :
    InStep leavesOf allNamed (terms .values v) (terms .columns v) := by
  cases v with
  | null => exact .named (by simp [CanName, leavesOf])
  | object fields => exact inStep_entryTerms fields
  | array items => exact inStep_itemTerms items
  | bool | number | string => exact .refused _ _

theorem inStep_entryTerms (fields : List (String × Json)) :
    InStep leavesOf allNamed (entryTerms .values fields) (entryTerms .columns fields) := by
  cases fields with
  | nil => exact .named (by simp [CanName, leavesOf])
  | cons e rest =>
    obtain ⟨key, v⟩ := e
    have others := inStep_entryTerms rest
    rw [entryTerms, entryTerms]
    cases Operator.ofKeyword? key with
    | some o => exact inStep_cons (inStep_group o (inStep_terms v)) others
    | none => exact inStep_cons (inStep_entryTerm key v) others

theorem inStep_itemTerms (items : List Json) :
    InStep leavesOf allNamed (itemTerms .values items) (itemTerms .columns items) := by
  cases items with
  | nil => exact .named (by simp [CanName, leavesOf])
  | cons v rest =>
    apply (inStep_terms v).followed (inStep_itemTerms rest)
    · intro ts more
      rw [leavesOf_append, leavesOf_conjunction]
    · intro ts more
      rw [conjunction_allNamed, allNamed_eq_map, allNamed_eq_map, List.map_append,
        Option.toList_map]
end

/-- The terms of a filter make the comparisons that are written in it, in their order: of a column
with a plain value, of a column with each comparer under it, and of each column under a comparer.
Where columns are wanted on the right side, a filter is read just if it could be read anyway and all
its values are texts. The terms are the same then, with the columns that the texts name. -/
theorem parse_keeps_comparisons (filter : Json) :
    (∀ ts, parse filter = .ok ts → leavesOf ts = comparisonsOf filter) ∧
      ∀ ts, parseColumns filter = .ok ts ↔
        ∃ plain, parse filter = .ok plain ∧ CanName (leavesOf plain) ∧ ts = plain.map named := by
  constructor
  · intro ts h
    exact leaves_terms h
  · intro ts
    simp only [← allNamed_eq_map]
    exact (inStep_terms filter).ok_iff ts

/-- Comparers under a column and under `$or` and `$and`, columns under a comparer, and a list with
an element that says nothing. -/
theorem parse_keeps_comparisons_nested :
    let filter : Json := .object [
      ("$or", .array [
        .object [("a", .object [("$gte", .string "b"),
          ("$or", .object [("$lt", .string "c"), ("$and", .array [.string "d"])])])],
        .object [],
        .object [("$ne", .object [("e", .string "f"), ("a", .string "g")])]]),
      ("h", .string "i")]
    let made : List Comparison := [
      ⟨"a", .gte, .value (.string "b")⟩, ⟨"a", .lt, .value (.string "c")⟩,
      ⟨"a", .eq, .value (.string "d")⟩, ⟨"e", .ne, .value (.string "f")⟩,
      ⟨"a", .ne, .value (.string "g")⟩, ⟨"h", .eq, .value (.string "i")⟩]
    ∃ ts, parse filter = .ok ts ∧ leavesOf ts = made ∧
      parseColumns filter = .ok (ts.map named) := by
  intro filter made
  have parsed : ∃ ts, parse filter = .ok ts := ⟨_, rfl⟩
  obtain ⟨ts, hts⟩ := parsed
  have leaves : leavesOf ts = made := (parse_keeps_comparisons filter).1 ts hts
  have names : CanName (leavesOf ts) := by simp [leaves, made, CanName]
  exact ⟨ts, hts, leaves, ((parse_keeps_comparisons filter).2 _).mpr ⟨ts, hts, names, rfl⟩⟩

end DataAccess.Condition
