import DataAccess.Proofs.Outcome
import DataAccess.Proofs.Sql.Layout
import DataAccess.Proofs.Sql.Names

/-!
The places of a query that may bind values, and the values that each of them binds.
-/
namespace DataAccess
open Sql Text

/-- The form in which a value is bound. -/
def coerced (v : Json) : Slot → Json
  | .jsonPath => .string v.text
  | .textPath => textual v
  | .unknown => v
  | .typed t =>
    if t.isJson then .string (v.text?.getD v.text) else
    match t.isArray, v with
    | true, .array items => .string (ArrayText.ofItems items)
    | _, v => if t.isTextual then textual v else v

theorem textual_string (s : String) : textual (.string s) = .string s := rfl

/-- A whole number is bound against text as its decimal digits, behind a minus if it is negative. -/
theorem textual_ofInt (i : Int) : textual (.ofInt i) = .string (toString i) := by
  refine congrArg Json.string (String.toList_inj.mp ?_)
  show (String.ofList (Json.Number.chars (.whole i))).toList = i.repr.toList
  rw [String.toList_ofList, Json.Number.chars]
  cases i with
  | ofNat n =>
    rw [if_neg (Int.not_lt.mpr (Int.natCast_nonneg n) : ¬ Int.ofNat n < 0)]
    simp [Int.repr, Nat.repr]
  | negSucc n =>
    rw [if_pos (Int.negSucc_lt_zero n)]
    simp [Int.repr, Nat.repr]

theorem textual_float (x : Double) :
    textual (.number (.float x)) = .string (String.ofList x.chars) := rfl

theorem textual_bool (b : Bool) : textual (.bool b) = .string (toString b) := by
  cases b <;> rfl

/-- Nothing else is turned into text. -/
theorem textual_of_not_text {v : Json} (h : v = .null ∨ isScalar v = false) : textual v = v := by
  rcases h with rfl | h
  · rfl
  · cases v <;> first | rfl | contradiction

/-- A place of a query that may bind values. -/
inductive Site where
  | leaf (table : String) (comparison : Comparison)
  /-- A value of an insert. -/
  | inserted (table key : String) (v : Json)
  /-- A value of an update, which may be raw SQL. -/
  | assigned (table key : String) (v : Json)

def Dialect.operands (d : Dialect) (table column : String) (comparer : Comparer) (v : Json) :
    List Json :=
  let slot := d.slot table column
  match comparer with
  | .contains | .notContains => [.string v.text]
  | .arrayContains => [if isScalar v then v else .string v.text]
  | _ =>
    match v with
    | .array items =>
      if slot.isJson || slot.isArray then [coerced v slot]
      else items.map fun item => coerced item slot
    | v => [coerced v slot]

/-- The values that a place binds. -/
def Site.values (d : Dialect) : Site → List Json
  | .leaf _ ⟨_, _, .column _⟩ => []
  | .leaf table ⟨column, comparer, .value v⟩ =>
    if v.isNull then [] else d.operands table column comparer v
  | .inserted table key v => if v.isNull then [] else [coerced v (d.slot table key)]
  | .assigned table key v =>
    if (Dialect.rawText? v).isSome || v.isNull then [] else [coerced v (d.slot table key)]

/-- What a place contributes to the text beside its values. -/
def Site.names : Site → List String
  | .leaf _ ⟨column, _, .column other⟩ => [column, other]
  | .leaf _ ⟨column, _, .value _⟩ => [column]
  | .inserted _ key _ => [key]
  | .assigned _ key v => key :: (Dialect.rawText? v).toList

def Condition.sites (table : String) (terms : List Condition) : List Site :=
  (Condition.leavesOf terms).map (Site.leaf table)

def Join.sites (j : Join) : List Site :=
  if j.required = .none then [] else Condition.sites j.table (j.conditions.getD [])

def Upsert.sites (table : String) (u : Upsert) : List Site :=
  match u.action with
  | .update (.object values) => values.map fun e => .assigned table e.1 e.2
  | _ => []

/-- The places of a query in the order of its text. -/
def Spec.sites (s : Spec) : List Site :=
  match s.command with
  | .select =>
    s.joins.flatMap Join.sites ++ Condition.sites s.table s.conditions ++
      Condition.sites s.table s.having
  | .insert =>
    s.values.map (fun e => .inserted s.table e.1 e.2) ++
      s.upsert.toList.flatMap (Upsert.sites s.table)
  | .update =>
    s.values.map (fun e => .assigned s.table e.1 e.2) ++ Condition.sites s.table s.conditions
  | .delete => Condition.sites s.table s.conditions

def Join.names (j : Join) : List String := j.table :: j.localKey.toList ++ j.foreignKey.toList

def Upsert.names (u : Upsert) : List String :=
  match u.action with
  | .merge columns => u.columns ++ columns
  | _ => u.columns

def Spec.names (s : Spec) : List String :=
  s.table :: s.select ++ s.groupBy ++ s.sort ++ s.joins.flatMap Join.names ++
    s.upsert.toList.flatMap Upsert.names ++ s.sites.flatMap Site.names

def Schema.typeNames (s : Schema) : List String := s.flatMap fun t => t.2.map fun c => c.2.name

structure Dialect.Plain (d : Dialect) : Prop where
  key : Text.Plain d.primaryKey.toList
  types : ∀ name ∈ d.schema.typeNames, Text.Plain name.toList

theorem Schema.mem_typeNames {s : Schema} {table column : String} {t : ColumnType}
    (h : s.column? table column = some t) : t.name ∈ s.typeNames := by
  obtain ⟨columns, hc, ht⟩ := Option.bind_eq_some_iff.mp h
  refine List.mem_flatMap.mpr ⟨(table, columns), Assoc.mem_of_get? hc, ?_⟩
  exact List.mem_map.mpr ⟨(column, t), Assoc.mem_of_get? ht, rfl⟩

def Slot.Plain (s : Slot) : Prop := ∀ t, s = .typed t → Text.Plain t.name.toList

theorem Dialect.Plain.slot {d : Dialect} (h : d.Plain) (table column : String) :
    (d.slot table column).Plain := by
  intro t ht
  unfold Dialect.slot at ht
  dsimp only at ht
  split_ifs at ht
  · unfold pathSlot at ht
    split at ht <;> contradiction
  · split at ht
    next u hu =>
      cases ht
      exact h.types t.name (Schema.mem_typeNames hu)
    next => contradiction

theorem binds_document (v : Json) : (document v).Binds [.string v.text] :=
  .hole _ (opens_text rfl rfl _) (.text (by decide) .nil)

theorem binds_hole (v : Json) : Binds [.hole v] [v] := .hole v opens_nil .nil

theorem binds_castTo (v : Json) {t : ColumnType} (h : Text.Plain t.name.toList) :
    (castTo v t).Binds [v] :=
  .hole v (opens_text (c := ':') (by simp) rfl _) (.text (plain_concat (by decide) h) .nil)

/-- A value binds itself, in the form that its column wants. -/
theorem binds_bind (v : Json) {s : Slot} (h : s.Plain) : (bind v s).Binds [coerced v s] := by
  cases s with
  | unknown => exact binds_hole v
  | jsonPath => exact binds_document v
  | textPath => exact binds_hole (textual v)
  | typed t =>
    have ht := h t rfl
    have other : Binds (if t.isTextual then [.hole (textual v)] else bindPlain v t)
        [if t.isTextual then textual v else v] := by
      split_ifs
      · exact binds_hole _
      · unfold bindPlain
        split
        · exact binds_castTo _ ht
        · exact binds_hole _
    by_cases hj : t.isJson
    · simp only [bind, bindTyped, coerced, if_pos hj]
      cases v <;> exact binds_castTo _ ht
    simp only [bind, bindTyped, coerced, if_neg hj]
    cases t.isArray with
    | false => exact other
    | true =>
      cases v with
      | array items => exact binds_castTo _ ht
      | _ => exact other

theorem plain_comparer (c : Comparer) : Text.Plain c.sql.toList := by
  cases c <;> decide

theorem binds_containment (negated : Bool) {target : String} (ht : Text.Plain target.toList)
    {value : Sql} {values : List Json} (h : value.Binds values) :
    (containment negated target value).Binds values := by
  unfold containment
  split_ifs
  · exact .text (plain_concat (plain_concat (by decide) ht) (by decide))
      (h.closed (.text (by decide) .nil) (opens_text rfl rfl _))
  · exact .text (plain_concat ht (by decide)) h

theorem binds_operation {target operator : String} (ht : Text.Plain target.toList)
    (ho : Text.Plain operator.toList) {value : Sql} {values : List Json} (h : value.Binds values) :
    (operation target operator value).Binds values :=
  .text (plain_concat (plain_concat (plain_concat ht (by decide)) ho) (by decide)) h

theorem binds_membership {target : String} (ht : Text.Plain target.toList) (comparer : Comparer)
    (items : List Json) {s : Slot} (h : s.Plain) :
    (membership target comparer items s).Binds (items.map fun v => coerced v s) := by
  have hlist : (Sql.joined ", " (items.map fun v => bind v s)).Binds
      (items.map fun v => coerced v s) := by
    have h := Binds.commas items fun v _ => binds_bind v h
    rwa [← List.map_eq_flatMap] at h
  have hclosed := hlist.closed (t := [Piece.text "])"]) (.text (by decide) .nil)
    (opens_text rfl rfl _)
  unfold membership
  by_cases he : items.isEmpty
  · rw [if_pos he, List.isEmpty_iff.mp he]
    refine .text ?_ .nil
    split_ifs <;> decide
  rw [if_neg he]
  by_cases hne : comparer = .ne
  · rw [if_pos hne]
    exact .text (plain_concat ht (by decide)) hclosed
  · rw [if_neg hne]
    refine .text ?_ hclosed
    exact plain_concat (plain_concat (plain_concat ht (by decide)) (plain_comparer _)) (by decide)

theorem binds_element (v : Json) :
    (element v).Binds [if isScalar v then v else .string v.text] := by
  unfold element
  split_ifs
  · exact .text (by decide) (.hole v (opens_text rfl rfl _) (.text (by decide) .nil))
  · exact binds_document v

theorem binds_nullTest {target : String} (ht : Text.Plain target.toList) {comparer : Comparer}
    {s : Sql} (h : nullTest target comparer = .ok s) : s.Binds [] := by
  unfold nullTest at h
  split at h
  · cases h
    exact .text (plain_concat ht (by decide)) .nil
  · cases h
    exact .text (plain_concat ht (by decide)) .nil
  · contradiction

theorem binds_comparison {target : String} (ht : Text.Plain target.toList) {comparer : Comparer}
    (v : Json) {s : Slot} (h : s.Plain) :
    (comparison target comparer v s).Binds (match v with
      | .array items =>
        if s.isJson || s.isArray then [coerced v s] else items.map fun item => coerced item s
      | v => [coerced v s]) := by
  cases v with
  | array items =>
    simp only [comparison]
    split_ifs
    · exact binds_operation ht (plain_comparer comparer) (binds_bind _ h)
    · exact binds_membership ht comparer items h
  | _ => exact binds_operation ht (plain_comparer comparer) (binds_bind _ h)

/-- A comparison binds the values of its place. -/
theorem binds_leaf {d : Dialect} (hd : d.Plain) {table column : String} {comparer : Comparer}
    {operand : Operand} {s : Sql} (h : d.leaf table column comparer operand = .ok s)
    (hn : ∀ name ∈ (Site.leaf table ⟨column, comparer, operand⟩).names,
      Text.Plain name.toList) :
    s.Binds ((Site.leaf table ⟨column, comparer, operand⟩).values d) := by
  have ht {name : String} (hp : Text.Plain name.toList) :
      Text.Plain (d.naming.column name).toList := d.naming.plain_column hp
  cases operand with
  | column other =>
    have hcolumn := ht (hn column (by simp [Site.names]))
    have hother : (Sql.text (d.naming.column other)).Binds [] :=
      .text (ht (hn other (by simp [Site.names]))) .nil
    simp only [Dialect.leaf] at h
    split_ifs at h <;> cases h
    · exact binds_containment true hcolumn hother
    · exact binds_operation hcolumn (plain_comparer comparer) hother
  | value v =>
    have hcolumn := ht (hn column (by simp [Site.names]))
    simp only [Dialect.leaf] at h
    simp only [Site.values]
    split_ifs at h ⊢
    · exact binds_nullTest hcolumn h
    · have hs := hd.slot table column
      unfold Dialect.operands
      cases comparer with
      | contains =>
        cases h
        exact binds_containment false hcolumn (binds_document v)
      | notContains =>
        cases h
        exact binds_containment true hcolumn (binds_document v)
      | arrayContains =>
        cases h
        exact binds_containment false hcolumn (binds_element v)
      | _ =>
        cases h
        exact binds_comparison hcolumn v hs

end DataAccess
