import DataAccess.Proofs.Sql.Numbering
import Mathlib.Data.List.Forall2

/-!
The text of a query does not depend on data. Of a value it shows the kind, of a list also the
length and the kinds of the items, and nothing else.
-/
namespace DataAccess

inductive Json.Kind where
  | null | bool | number | string | array | object
  deriving DecidableEq

namespace Json

def kind : Json → Kind
  | .null => .null
  | .bool _ => .bool
  | .number _ => .number
  | .string _ => .string
  | .array _ => .array
  | .object _ => .object

/-- Values of one kind; lists are as long as each other and have items of the same kinds. -/
def SameShape : Json → Json → Prop
  | .array items, .array others => List.Forall₂ (fun v w => v.kind = w.kind) items others
  | v, w => v.kind = w.kind

theorem SameShape.kind_eq {v w : Json} (h : v.SameShape w) : v.kind = w.kind := by
  cases v <;> cases w <;> first | rfl | exact h

theorem isNull_eq {v w : Json} (h : v.kind = w.kind) : v.isNull = w.isNull := by
  cases v <;> cases w <;> first | rfl | cases h

end Json

/-- Two options hold related values, or nothing. -/
theorem optionRel_cases {α : Type} {R : α → α → Prop} {a b : Option α} (h : Option.Rel R a b) :
    (a = none ∧ b = none) ∨ ∃ x y, a = some x ∧ b = some y ∧ R x y := by
  cases h with
  | none => exact .inl ⟨rfl, rfl⟩
  | some hxy => exact .inr ⟨_, _, rfl, rfl, hxy⟩

def Record.Alike (values others : Record) : Prop :=
  List.Forall₂ (fun e f => e.1 = f.1 ∧ e.2.SameShape f.2) values others

theorem Record.Alike.isEmpty_eq {values others : Record} (h : Record.Alike values others) :
    values.isEmpty = others.isEmpty := by
  cases h <;> rfl

theorem Record.Alike.keys_eq {values others : Record} (h : Record.Alike values others)
    (f : String → String) : (values.map fun e => f e.1) = others.map fun e => f e.1 := by
  induction h with
  | nil => rfl
  | cons he _ ih => rw [List.map_cons, List.map_cons, ih, he.1]

def Operand.Alike : Operand → Operand → Prop
  | .value v, .value w => v.SameShape w
  | .column name, .column other => name = other
  | _, _ => False

mutual
def Condition.Alike : Condition → Condition → Prop
  | .leaf column comparer a, .leaf column' comparer' b =>
    column = column' ∧ comparer = comparer' ∧ a.Alike b
  | .group o cs, .group o' ds => o = o' ∧ AllAlike cs ds
  | _, _ => False
termination_by structural c => c

def Condition.AllAlike : List Condition → List Condition → Prop
  | [], [] => True
  | c :: cs, d :: ds => c.Alike d ∧ AllAlike cs ds
  | _, _ => False
termination_by structural cs => cs
end

structure Join.Alike (j k : Join) : Prop where
  table : j.table = k.table
  localKey : j.localKey = k.localKey
  foreignKey : j.foreignKey = k.foreignKey
  required : j.required = k.required
  conditions : Option.Rel Condition.AllAlike j.conditions k.conditions

def OnConflict.Alike : OnConflict → OnConflict → Prop
  | .update (.object values), .update (.object others) => Record.Alike values others
  | a, b => a = b

theorem OnConflict.Alike.cases {a b : OnConflict} (h : a.Alike b) :
    a = b ∨ ∃ values others, a = .update (.object values) ∧ b = .update (.object others) ∧
      Record.Alike values others := by
  unfold OnConflict.Alike at h
  split at h
  next values others => exact .inr ⟨values, others, rfl, rfl, h⟩
  next => exact .inl h

structure Upsert.Alike (u v : Upsert) : Prop where
  columns : u.columns = v.columns
  action : u.action.Alike v.action

/-- Queries that differ in their data. -/
structure Spec.Alike (s t : Spec) : Prop where
  table : s.table = t.table
  command : s.command = t.command
  select : s.select = t.select
  conditions : Condition.AllAlike s.conditions t.conditions
  joins : List.Forall₂ Join.Alike s.joins t.joins
  sort : s.sort = t.sort
  groupBy : s.groupBy = t.groupBy
  having : Condition.AllAlike s.having t.having
  offset : s.offset = t.offset
  limit : s.limit = t.limit
  window : s.window = t.window
  upsert : Option.Rel Upsert.Alike s.upsert t.upsert
  values : Record.Alike s.values t.values
  first : s.first = t.first

def Site.raw? : Site → Option String
  | .assigned _ _ v => Dialect.rawText? v
  | _ => none

namespace Sql

def blank : Piece → Piece
  | .text s => .text s
  | .hole _ => .hole .null

/-- Two statements differ in the values of their holes. -/
def SameText (s t : Sql) : Prop := s.map blank = t.map blank

theorem charsFrom_blank (n : Nat) (s : Sql) : charsFrom n (s.map blank) = charsFrom n s := by
  induction s generalizing n with
  | nil => rfl
  | cons p s ih => cases p <;> simp [charsFrom, blank, ih]

/-- Such statements have one text. -/
theorem SameText.sql_eq {s t : Sql} (h : s.SameText t) : s.compiled.sql = t.compiled.sql := by
  simp only [compiled]
  rw [← charsFrom_blank 1 s, ← charsFrom_blank 1 t, h]

theorem SameText.refl (s : Sql) : s.SameText s := rfl

theorem SameText.append {s t u v : Sql} (h : s.SameText t) (k : u.SameText v) :
    (s ++ u).SameText (t ++ v) := by
  unfold SameText at *
  rw [List.map_append, List.map_append, h, k]

theorem SameText.text (a : String) {s t : Sql} (h : s.SameText t) :
    SameText (.text a :: s) (.text a :: t) :=
  .append (.refl [.text a]) h

theorem SameText.hole (v w : Json) {s t : Sql} (h : s.SameText t) :
    SameText (.hole v :: s) (.hole w :: t) := by
  unfold SameText at *
  rw [List.map_cons, List.map_cons, h]
  rfl

/-- Parts that are related one by one are written as texts that are the same one by one. -/
theorem SameText.mapped {α : Type} {R : α → α → Prop} {f : α → Sql} {as bs : List α}
    (h : List.Forall₂ R as bs) (hf : ∀ a b, R a b → (f a).SameText (f b)) :
    List.Forall₂ SameText (as.map f) (bs.map f) := by
  rw [List.forall₂_map_left_iff, List.forall₂_map_right_iff]
  exact h.imp hf

theorem SameText.joined (separator : String) {parts others : List Sql}
    (h : List.Forall₂ SameText parts others) :
    (Sql.joined separator parts).SameText (Sql.joined separator others) := by
  induction h with
  | nil => exact .refl _
  | cons hp hs ih =>
    cases hs with
    | nil => exact hp
    | cons hq hs =>
      simp only [Sql.joined] at ih ⊢
      exact (hp.append (.refl _)).append ih

end Sql

open Sql

theorem sameText_bind {v w : Json} (h : v.kind = w.kind) (s : Slot) :
    (bind v s).SameText (bind w s) := by
  cases s with
  | unknown => exact .hole v w (.refl _)
  | jsonPath => exact .hole _ _ (.refl _)
  | textPath => exact .hole _ _ (.refl _)
  | typed t =>
    have cast (x y : Json) : (castTo x t).SameText (castTo y t) := .hole x y (.refl _)
    have other : SameText (if t.isTextual then [.hole (textual v)] else bindPlain v t)
        (if t.isTextual then [.hole (textual w)] else bindPlain w t) := by
      split_ifs
      · exact .hole _ _ (.refl _)
      · cases v <;> cases w <;> first | exact .hole _ _ (.refl _) | cases h
    simp only [bind, bindTyped]
    -- a document is cast whatever its kind; elsewhere the cast depends on the kind
    by_cases hj : t.isJson
    · rw [if_pos hj, if_pos hj]
      cases v <;> cases w <;> exact cast _ _
    rw [if_neg hj, if_neg hj]
    cases t.isArray with
    | false => exact other
    | true => cases v <;> cases w <;> first | exact cast _ _ | exact other | cases h

theorem sameText_membership (target : String) (comparer : Comparer) {items others : List Json}
    (h : List.Forall₂ (fun v w => v.kind = w.kind) items others) (s : Slot) :
    (membership target comparer items s).SameText (membership target comparer others s) := by
  have hlist := SameText.joined ", " (SameText.mapped h fun v w hk => sameText_bind hk s)
  have hempty : items.isEmpty = others.isEmpty := by
    cases h <;> rfl
  unfold membership
  rw [hempty]
  by_cases he : others.isEmpty
  · rw [if_pos he, if_pos he]
    exact .refl _
  rw [if_neg he, if_neg he]
  by_cases hne : comparer = .ne
  · rw [if_pos hne, if_pos hne]
    exact .text _ (hlist.append (.refl _))
  · rw [if_neg hne, if_neg hne]
    exact .text _ (hlist.append (.refl _))

theorem sameText_comparison (target : String) (comparer : Comparer) {v w : Json}
    (h : v.SameShape w) (s : Slot) :
    (comparison target comparer v s).SameText (comparison target comparer w s) := by
  have operations : (operation target comparer.sql (bind v s)).SameText
      (operation target comparer.sql (bind w s)) := .text _ (sameText_bind h.kind_eq s)
  cases v with
  | array items =>
    cases w with
    | array others =>
      simp only [comparison]
      split_ifs
      · exact operations
      · exact sameText_membership target comparer h s
    | _ => cases h
  | _ => cases w <;> first | exact operations | cases h

theorem sameText_containment (negated : Bool) (target : String) {s t : Sql} (h : s.SameText t) :
    (containment negated target s).SameText (containment negated target t) := by
  unfold containment
  split_ifs
  · exact .text _ (h.append (.refl _))
  · exact .text _ h

theorem sameText_document (v w : Json) : (document v).SameText (document w) :=
  .hole _ _ (.refl _)

theorem sameText_element {v w : Json} (h : v.kind = w.kind) :
    (element v).SameText (element w) := by
  have hscalar : isScalar v = isScalar w := by
    cases v <;> cases w <;> first | rfl | cases h
  unfold element
  rw [hscalar]
  split_ifs
  · exact .text _ (.hole v w (.refl _))
  · exact sameText_document v w

/-- The text of a comparison shows the shape of its operand only. -/
theorem sameText_leaf (d : Dialect) (table column : String) (comparer : Comparer)
    {a b : Operand} (h : a.Alike b) :
    Agree SameText (d.leaf table column comparer a) (d.leaf table column comparer b) := by
  cases a with
  | column name =>
    cases b with
    | column other =>
      obtain rfl : name = other := h
      simp only [Dialect.leaf]
      split_ifs
      · exact .ok (.refl _)
      · exact .ok (.refl _)
    | value w => exact h.elim
  | value v =>
    cases b with
    | column other => exact h.elim
    | value w =>
      have hshape : v.SameShape w := h
      simp only [Dialect.leaf]
      rw [Json.isNull_eq hshape.kind_eq]
      split_ifs
      · cases nullTest (d.naming.column column) comparer with
        | ok s => exact .ok (.refl _)
        | error e => exact .error e
      · cases comparer with
        | contains => exact .ok (sameText_containment false _ (sameText_document v w))
        | notContains => exact .ok (sameText_containment true _ (sameText_document v w))
        | arrayContains =>
          exact .ok (sameText_containment false _ (sameText_element hshape.kind_eq))
        | _ => exact .ok (sameText_comparison _ _ hshape _)

namespace Clause

/-- Clauses with one text. -/
def SameText (c e : Clause) : Prop := (sql c).SameText (sql e)

theorem SameText.joined (o : Operator) {parts others : List Clause}
    (h : List.Forall₂ SameText parts others) :
    SameText (joined o parts) (Clause.joined o others) := by
  unfold SameText
  rw [sql_joined, sql_joined]
  exact .joined _ (Sql.SameText.mapped h fun _ _ hp => hp)

theorem SameText.enclosed (o : Operator) {parts others : List Clause}
    (h : List.Forall₂ SameText parts others) :
    SameText (enclosed o parts) (Clause.enclosed o others) := by
  unfold SameText Clause.enclosed
  rw [sql_append, sql_append]
  exact .append (.text "(" (SameText.joined o h)) (.refl _)

theorem SameText.nested (o : Operator) {parts others : List Clause}
    (h : List.Forall₂ SameText parts others) :
    SameText (nested o parts) (Clause.nested o others) := by
  cases h with
  | nil => exact Sql.SameText.refl _
  | cons hp hs => exact SameText.enclosed o (.cons hp hs)

theorem SameText.top {parts others : List Clause} (h : List.Forall₂ SameText parts others) :
    Option.Rel SameText (top parts) (Clause.top others) := by
  cases h with
  | nil => exact .none
  | cons hp hs =>
    cases hs with
    | nil => exact .some hp
    | cons hq hs => exact .some (SameText.enclosed .and (.cons hp (.cons hq hs)))

end Clause

mutual
theorem sameText_ofCondition (d : Dialect) (table : String) (c e : Condition) (h : c.Alike e) :
    Agree Clause.SameText (Clause.ofCondition d table c) (Clause.ofCondition d table e) := by
  cases c with
  | leaf column comparer a =>
    cases e with
    | leaf column' comparer' b =>
      obtain ⟨rfl, rfl, hab⟩ := h
      refine (sameText_leaf d table column comparer hab).map fun s t hst => ?_
      simpa [Clause.SameText, Clause.sql, ClauseToken.sql] using hst
    | group o es => exact h.elim
  | group o cs =>
    cases e with
    | leaf column comparer b => exact h.elim
    | group o' es =>
      obtain ⟨rfl, hs⟩ := h
      exact (sameText_ofConditions d table cs es hs).map fun _ _ hp => .nested o hp

theorem sameText_ofConditions (d : Dialect) (table : String) (cs es : List Condition)
    (h : Condition.AllAlike cs es) :
    Agree (List.Forall₂ Clause.SameText) (Clause.ofConditions d table cs)
      (Clause.ofConditions d table es) := by
  cases cs with
  | nil =>
    cases es with
    | nil => exact .ok .nil
    | cons e es => exact h.elim
  | cons c cs =>
    cases es with
    | nil => exact h.elim
    | cons e es =>
      obtain ⟨hc, hs⟩ := h
      refine (sameText_ofCondition d table c e hc).bind fun _ _ hp => ?_
      exact (sameText_ofConditions d table cs es hs).bind fun _ _ hps => .ok (.cons hp hps)
end

theorem sameText_ofTerms (d : Dialect) (table : String) {cs es : List Condition}
    (h : Condition.AllAlike cs es) :
    Agree (Option.Rel Clause.SameText) (Clause.ofTerms d table cs) (Clause.ofTerms d table es) :=
  (sameText_ofConditions d table cs es h).map fun _ _ hp => Clause.SameText.top hp

theorem sameText_guarded (d : Dialect) (word table : String) {cs es : List Condition}
    (h : Condition.AllAlike cs es) :
    Agree SameText (d.guarded word table cs) (d.guarded word table es) := by
  refine (sameText_ofTerms d table h).bind fun c e hce => ?_
  cases hce with
  | none => exact .ok (.refl _)
  | some hce => exact .ok (.text _ hce)

theorem sameText_joinCondition (d : Dialect) (table : String) {j k : Join} (h : j.Alike k) :
    Agree SameText (d.joinCondition table j) (d.joinCondition table k) := by
  unfold Dialect.joinCondition
  rw [h.table, h.localKey, h.foreignKey]
  obtain ⟨hj, hk⟩ | ⟨cs, es, hj, hk, hce⟩ := optionRel_cases h.conditions <;> rw [hj, hk]
  · exact .ok (.refl _)
  · refine (sameText_ofTerms d k.table hce).bind fun _ _ hc => ?_
    cases hc with
    | none => exact .error _
    | some hc => exact .ok hc

theorem sameText_join (d : Dialect) (table : String) {j k : Join} (h : j.Alike k) :
    Agree SameText (d.join table j) (d.join table k) := by
  unfold Dialect.join
  rw [h.table, h.required]
  dsimp only
  split_ifs
  · exact .error _
  · exact .ok (.refl _)
  · exact (sameText_joinCondition d table h).bind fun _ _ hst => .ok (.text _ hst)

theorem sameText_joins (d : Dialect) (table : String) {js ks : List Join}
    (h : List.Forall₂ Join.Alike js ks) :
    Agree SameText (d.joins table js) (d.joins table ks) := by
  induction h with
  | nil => exact .ok (.refl _)
  | cons hj _ ih =>
    refine (sameText_join d table hj).bind fun _ _ hs => ?_
    exact ih.bind fun _ _ ht => .ok (hs.append ht)

theorem sameText_source (d : Dialect) {s t : Spec} (h : s.Alike t) :
    Agree SameText (d.source s) (d.source t) := by
  unfold Dialect.source
  rw [h.table]
  refine (sameText_joins d t.table h.joins).bind fun _ _ hj => ?_
  exact (sameText_guarded d "WHERE" t.table h.conditions).bind fun _ _ hf =>
    .ok (.text _ (hj.append hf))

theorem selectList_eq (d : Dialect) {s t : Spec} (h : s.Alike t) :
    d.selectList s = d.selectList t := by
  rw [Dialect.selectList, Dialect.selectList, h.select, h.window]

theorem limits_eq {s t : Spec} (h : s.Alike t) : Dialect.limits s = Dialect.limits t := by
  rw [Dialect.limits, Dialect.limits, h.window, h.offset, h.limit]

theorem returning_eq (d : Dialect) {s t : Spec} (h : s.Alike t) :
    d.returning s = d.returning t := by
  rw [Dialect.returning, Dialect.returning, h.select]

theorem sameText_select (d : Dialect) {s t : Spec} (h : s.Alike t) :
    Agree SameText (d.select s) (d.select t) := by
  unfold Dialect.select
  rw [selectList_eq d h, limits_eq h, h.groupBy, h.sort, h.table]
  refine (sameText_source d h).bind fun _ _ hs => ?_
  refine (sameText_guarded d "HAVING" t.table h.having).bind fun _ _ hh => .ok ?_
  have hstart := (SameText.refl (.text "SELECT " :: Sql.listed (d.selectList t))).append hs
  exact (((hstart.append (.refl _)).append hh).append (.refl _)).append (.refl _)

theorem sameText_assigned (d : Dialect) (table key : String) {v w : Json}
    (h : v.SameShape w) : (d.assigned table key v).SameText (d.assigned table key w) := by
  unfold Dialect.assigned
  rw [Json.isNull_eq h.kind_eq]
  split_ifs
  · exact .refl _
  · exact sameText_bind h.kind_eq _

theorem sameText_assignment (d : Dialect) (table key : String) {v w : Json}
    (h : v.SameShape w) (hv : Dialect.rawText? v = none) (hw : Dialect.rawText? w = none) :
    (d.assignment table key v).SameText (d.assignment table key w) := by
  unfold Dialect.assignment
  rw [hv, hw]
  exact .text _ (sameText_assigned d table key h)

theorem sameText_assignments (d : Dialect) (table : String) {values others : Record}
    (h : Record.Alike values others) (hv : ∀ e ∈ values, Dialect.rawText? e.2 = none)
    (ho : ∀ e ∈ others, Dialect.rawText? e.2 = none) :
    (d.assignments table values).SameText (d.assignments table others) := by
  refine .joined ", " ?_
  induction h with
  | nil => exact .nil
  | @cons e f es fs hef _ ih =>
    rw [List.forall_mem_cons] at hv ho
    refine .cons ?_ (ih hv.2 ho.2)
    show (d.assignment table e.1 e.2).SameText (d.assignment table f.1 f.2)
    rw [hef.1]
    exact sameText_assignment d table f.1 hef.2 hv.1 ho.1

/-- Keys and conflict columns are shown, the values of a replacement are not. -/
theorem sameText_onConflict (d : Dialect) (table : String) {u v : Upsert} (h : u.Alike v)
    (hu : ∀ site ∈ u.sites table, site.raw? = none)
    (hv : ∀ site ∈ v.sites table, site.raw? = none) :
    Agree SameText (d.onConflict table u) (d.onConflict table v) := by
  obtain ⟨columns, action⟩ := u
  obtain ⟨columns', action'⟩ := v
  obtain ⟨hc, ha⟩ := h
  obtain rfl : columns = columns' := hc
  obtain rfl | ⟨values, others, rfl, rfl, hr⟩ := ha.cases
  · exact .refl .refl _
  -- an error would quote the values, but the only objects it refuses have none
  have assigned (es : Record)
      (h : ∀ site ∈ Upsert.sites table ⟨columns, .update (.object es)⟩, site.raw? = none) :
      ∀ e ∈ es, Dialect.rawText? e.2 = none :=
    fun e he => h (.assigned table e.1 e.2) (List.mem_map_of_mem he)
  have hsame := sameText_assignments d table hr (assigned values hu) (assigned others hv)
  unfold Dialect.onConflict
  by_cases hcolumns : columns.isEmpty
  · simp only [hcolumns]
    exact .error _
  · cases hr with
    | nil => exact .refl .refl _
    | cons he hs =>
      simp only [hcolumns]
      exact .ok ((SameText.refl _).append (.text _ hsame))

theorem sameText_inserted (d : Dialect) {s t : Spec} (h : s.Alike t) :
    (d.inserted s).SameText (d.inserted t) := by
  have hvalues : (s.values.map fun e => d.assigned t.table e.1 e.2).Forall₂ SameText
      (t.values.map fun e => d.assigned t.table e.1 e.2) := by
    refine SameText.mapped h.values fun e f hef => ?_
    rw [hef.1]
    exact sameText_assigned d t.table f.1 hef.2
  unfold Dialect.inserted
  rw [h.table, h.values.isEmpty_eq, h.values.keys_eq]
  dsimp only
  split_ifs
  · exact .refl _
  · exact ((SameText.refl _).append (.text _ (.joined ", " hvalues))).append (.refl _)

theorem sameText_insert (d : Dialect) {s t : Spec} (h : s.Alike t)
    (hs : ∀ u ∈ s.upsert, ∀ site ∈ u.sites s.table, site.raw? = none)
    (ht : ∀ u ∈ t.upsert, ∀ site ∈ u.sites t.table, site.raw? = none) :
    Agree SameText (d.insert s) (d.insert t) := by
  have hinserted := sameText_inserted d h
  rw [h.table] at hs
  unfold Dialect.insert
  rw [returning_eq d h, h.table]
  obtain ⟨hu, hv⟩ | ⟨u, v, hu, hv, huv⟩ := optionRel_cases h.upsert <;> rw [hu, hv]
  · exact .ok ((hinserted.append (.refl _)).append (.refl _))
  · refine (sameText_onConflict d t.table huv (hs u hu) (ht v hv)).bind fun _ _ hc => ?_
    exact .ok ((hinserted.append hc).append (.refl _))

theorem sameText_update (d : Dialect) {s t : Spec} (h : s.Alike t)
    (hs : ∀ e ∈ s.values, Dialect.rawText? e.2 = none)
    (ht : ∀ e ∈ t.values, Dialect.rawText? e.2 = none) :
    Agree SameText (d.update s) (d.update t) := by
  unfold Dialect.update
  rw [h.values.isEmpty_eq, returning_eq d h, h.table]
  split_ifs
  · exact .error _
  refine (sameText_guarded d "WHERE" t.table h.conditions).bind fun _ _ hf => .ok ?_
  exact ((SameText.text _ (sameText_assignments d t.table h.values hs ht)).append hf).append
    (.refl _)

theorem sameText_delete (d : Dialect) {s t : Spec} (h : s.Alike t) :
    Agree SameText (d.delete s) (d.delete t) := by
  unfold Dialect.delete
  rw [h.table]
  exact (sameText_guarded d "WHERE" t.table h.conditions).bind fun _ _ hf => .ok (.text _ hf)

theorem rawless_upsert {s : Spec} (hc : s.command = .insert)
    (h : ∀ site ∈ s.sites, site.raw? = none) :
    ∀ u ∈ s.upsert, ∀ site ∈ u.sites s.table, site.raw? = none := by
  intro u hu site hsite
  refine h site ?_
  rw [Spec.sites, hc]
  exact List.mem_append_right _ (List.mem_flatMap.mpr ⟨u, Option.mem_toList.mpr hu, hsite⟩)

theorem rawless_values {s : Spec} (hc : s.command = .update)
    (h : ∀ site ∈ s.sites, site.raw? = none) : ∀ e ∈ s.values, Dialect.rawText? e.2 = none := by
  intro e he
  refine h (.assigned s.table e.1 e.2) ?_
  rw [Spec.sites, hc]
  exact List.mem_append_left _ (List.mem_map_of_mem he)

theorem sameText_statement (d : Dialect) {s t : Spec} (h : s.Alike t)
    (hs : ∀ site ∈ s.sites, site.raw? = none) (ht : ∀ site ∈ t.sites, site.raw? = none) :
    Agree SameText (d.statement s) (d.statement t) := by
  have hc := h.command
  unfold Dialect.statement
  cases ht' : t.command <;> rw [ht'] at hc <;> rw [hc]
  case select => exact sameText_select d h
  case insert => exact sameText_insert d h (rawless_upsert hc hs) (rawless_upsert ht' ht)
  case update => exact sameText_update d h (rawless_values hc hs) (rawless_values ht' ht)
  case delete => exact sameText_delete d h

/-- No data reaches the text of a query: two queries that differ only in values of the same shapes,
with no raw SQL among the values they assign, have one text or fail with one error. -/
theorem compile_text_eq {s t : Spec} (alike : s.Alike t)
    (rawless : ∀ site ∈ s.sites ++ t.sites, site.raw? = none) (config : Config)
    (schema : Schema) :
    (compile s config schema).map Compiled.sql = (compile t config schema).map Compiled.sql := by
  rw [List.forall_mem_append] at rawless
  have agree := sameText_statement (config.dialect schema) alike rawless.1 rawless.2
  have forget (x : Except Error Sql) :
      (x.map Sql.compiled).map Compiled.sql = x.map fun s => s.compiled.sql := by
    cases x <;> rfl
  rw [compile_eq, compile_eq, forget, forget]
  exact agree.map_eq fun _ _ h => h.sql_eq

/-- What an attacker puts into a value stays out of the text. -/
theorem compile_text_eq_update :
    let s : Spec := {
      table := "users"
      command := .update
      values := [("name", .string "Ann")]
      conditions := [.leaf "id" .eq (.value (.array [.ofInt 1, .ofInt 2]))] }
    let t : Spec := { s with
      values := [("name", .string "Ann; DROP TABLE users")]
      conditions := [.leaf "id" .eq (.value (.array [.ofInt 7, .ofInt 8]))] }
    s.Alike t ∧ (∀ site ∈ s.sites ++ t.sites, site.raw? = none) ∧
      (compile s {} []).map Compiled.sql = (compile t {} []).map Compiled.sql := by
  intro s t
  have alike : s.Alike t := {
    table := rfl
    command := rfl
    select := rfl
    conditions := ⟨⟨rfl, rfl, .cons rfl (.cons rfl .nil)⟩, trivial⟩
    joins := .nil
    sort := rfl
    groupBy := rfl
    having := trivial
    offset := rfl
    limit := rfl
    window := rfl
    upsert := .none
    values := .cons ⟨rfl, rfl⟩ .nil
    first := rfl }
  have rawless : ∀ site ∈ s.sites ++ t.sites, site.raw? = none := by decide
  exact ⟨alike, rawless, compile_text_eq alike rawless {} []⟩

end DataAccess
