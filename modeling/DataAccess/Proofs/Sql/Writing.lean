import DataAccess.Proofs.Outcome
import DataAccess.Proofs.Sql.Layout
import Mathlib.Tactic.SplitIfs

/-!
A compilation writes its text and binds its values in the order of the text. This is said part by
part: what the compiler does for a part of the query is to write the pieces of that part from left
to right, where the parameters begin wherever they are.
-/
namespace DataAccess
namespace Sql

/-- The text is written and the values are bound, one after the other. -/
def write : Sql → Compiler String
  | [] => return ""
  | .text s :: rest => return s ++ (← write rest)
  | .hole v :: rest => do
    let placeholder ← Compiler.push v
    return placeholder ++ (← write rest)

/-- Numbers go on from the parameters that there are, and the values come after them. -/
theorem run_write (s : Sql) (params : List Json) :
    s.write.run params = .ok (s.textFrom (params.length + 1), params ++ s.params) := by
  induction s generalizing params with
  | nil => simp [write]; rfl
  | cons p s ih =>
    cases p with
    | text t =>
      rw [write, StateT.run_bind, ih, textFrom_text, params_text]
      rfl
    | hole v =>
      have pushed : (Compiler.push v).run params =
          .ok ("$" ++ toString (params ++ [v]).length, params ++ [v]) := rfl
      have rest := ih (params ++ [v])
      rw [List.length_append, List.length_singleton] at pushed rest
      rw [write, StateT.run_bind, pushed, textFrom_hole, params_hole,
        List.append_cons params v (Sql.params s)]
      show (write s >>= fun text => (pure ("$" ++ toString (params.length + 1) ++ text) :
        Compiler String)).run (params ++ [v]) = _
      rw [StateT.run_bind, rest]
      rfl

@[simp] theorem write_nil : write [] = pure "" := rfl

@[simp] theorem write_cons_text (s : String) (rest : Sql) :
    write (.text s :: rest) = (s ++ ·) <$> rest.write := by simp [write]

theorem write_text (s : String) : write [.text s] = pure s := by simp [write]

theorem write_hole (v : Json) : write [.hole v] = Compiler.push v := by simp [write]

theorem write_append (s t : Sql) :
    (s ++ t).write = do return (← s.write) ++ (← t.write) := by
  induction s with
  | nil => simp only [List.nil_append, write, pure_bind, String.empty_append, bind_pure]
  | cons p s ih =>
    cases p <;>
      simp only [List.cons_append, write, ih, bind_assoc, pure_bind, String.append_assoc]

theorem write_joined (separator : String) (parts : List Sql) :
    (joined separator parts).write = separator.intercalate <$> parts.mapM write := by
  induction parts with
  | nil => rfl
  | cons part parts ih =>
    cases parts with
    | nil => simp [joined]
    | cons other parts =>
      simp [joined, write_append, ih, text, write, String.append_assoc]

/-- Where a mistake follows, nothing remains of what was written before. -/
theorem write_bind_throw {α : Type} (s : Sql) (e : Error) :
    (s.write >>= fun _ => (throw e : Compiler α)) = throw e := by
  ext params
  simp only [StateT.run_bind, run_write]
  rfl

theorem write_listed (names : List String) :
    (listed names).write = pure (", ".intercalate names) := by
  have texts : (names.map text).mapM write = pure names := by
    rw [List.mapM_map]
    induction names with
    | nil => rfl
    | cons name names ih => simp [text, ih]
  rw [listed, write_joined, texts, map_pure]

end Sql

namespace Compiler
open Sql

theorem write_document (v : Json) : (DataAccess.document v).write = document v := by
  simp [DataAccess.document, write, document]

theorem write_castTo (v : Json) (t : ColumnType) : (castTo v t).write = cast v t := by
  simp [castTo, write, cast, String.append_assoc]

theorem write_bindTyped (v : Json) (t : ColumnType) :
    (DataAccess.bindTyped v t).write = bindTyped v t := by
  have json : (DataAccess.bindJson v t).write = bindJson v t := by
    cases v <;> exact write_castTo _ t
  have plain : (DataAccess.bindPlain v t).write = bindPlain v t := by
    cases v <;> first | exact write_castTo _ t | exact write_hole _
  have other : (if t.isTextual then [.hole (textual v)] else DataAccess.bindPlain v t : Sql).write =
      if t.isTextual then push (textual v) else bindPlain v t := by
    split_ifs
    · exact write_hole _
    · exact plain
  unfold DataAccess.bindTyped bindTyped
  by_cases document : t.isJson
  · rw [if_pos document, if_pos document, json]
  rw [if_neg document, if_neg document]
  cases t.isArray with
  | false => exact other
  | true =>
    cases v with
    | array items => exact write_castTo _ t
    | _ => exact other

theorem write_bind (v : Json) (slot : Slot) : (DataAccess.bind v slot).write = bind v slot := by
  cases slot with
  | unknown => exact write_hole v
  | jsonPath => exact write_document v
  | textPath => exact write_hole _
  | typed t => exact write_bindTyped v t

theorem write_containment (negated : Bool) (target : String) (value : Sql) :
    (containment negated target value).write = do
      let value ← value.write
      return if negated then "NOT (" ++ target ++ " @> " ++ value ++ ")"
        else target ++ " @> " ++ value := by
  cases negated <;> simp [containment, write_append, String.append_assoc]

theorem write_operation (target operator : String) (value : Sql) :
    (DataAccess.operation target operator value).write = do
      return target ++ " " ++ operator ++ " " ++ (← value.write) := by
  simp [DataAccess.operation]

theorem write_membership (target : String) (comparer : Comparer) (items : List Json) (slot : Slot) :
    (DataAccess.membership target comparer items slot).write =
      membership target comparer items slot := by
  have list : (Sql.joined ", " (items.map fun v => DataAccess.bind v slot)).write =
      ", ".intercalate <$> items.mapM fun v => bind v slot := by
    rw [write_joined, List.mapM_map]
    exact congrArg (", ".intercalate <$> items.mapM ·) (funext fun v => write_bind v slot)
  unfold DataAccess.membership membership
  split_ifs <;> simp [write_append, list, String.append_assoc]

theorem write_comparison (target : String) (comparer : Comparer) (v : Json) (slot : Slot) :
    (DataAccess.comparison target comparer v slot).write = comparison target comparer v slot := by
  have one : (DataAccess.operation target comparer.sql (DataAccess.bind v slot)).write =
      operation target comparer v slot := by
    rw [write_operation, write_bind]
    rfl
  cases v with
  | array items =>
    unfold DataAccess.comparison comparison
    dsimp only
    split_ifs
    · exact one
    · exact write_membership target comparer items slot
  | _ => exact one

theorem write_element (v : Json) : (DataAccess.element v).write = element v := by
  unfold DataAccess.element element
  split_ifs
  · simp [write, String.append_assoc]
  · exact write_document v

/-- What is laid out is written, and what cannot be laid out is the mistake of the compilation. -/
def ofLayout (layout : Except Error Sql) : Compiler String := do (← layout).write

theorem run_ofLayout (layout : Except Error Sql) (params : List Json) :
    (ofLayout layout).run params =
      layout.map fun s => (s.textFrom (params.length + 1), params ++ s.params) := by
  cases layout with
  | error e => rfl
  | ok s => exact s.run_write params

theorem ofLayout_ok (s : Sql) : ofLayout (.ok s) = s.write := rfl

theorem ofLayout_text (s : String) (layout : Except Error Sql) :
    (s ++ ·) <$> ofLayout layout = ofLayout (do return .text s :: (← layout)) := by
  cases layout with
  | error e => rfl
  | ok rest => exact (write_cons_text s rest).symm

theorem ofLayout_append (first second : Except Error Sql) :
    (do return (← ofLayout first) ++ (← ofLayout second)) =
      ofLayout (do return (← first) ++ (← second)) := by
  cases first with
  | error e => rfl
  | ok s =>
    cases second with
    | error e => exact write_bind_throw s e
    | ok t => exact (write_append s t).symm

theorem leaf_eq (d : Dialect) (table column : String) (comparer : Comparer) (operand : Operand) :
    leaf d table column comparer operand = ofLayout (d.leaf table column comparer operand) := by
  unfold leaf Dialect.leaf
  cases operand with
  | column other =>
    dsimp only
    split_ifs
    · simp [ofLayout_ok, write_containment, Sql.text]
    · simp [ofLayout_ok, write_operation, Sql.text]
  | value v =>
    by_cases null : v.isNull
    · simp only [null, if_true]
      cases comparer <;> first | exact (write_text _).symm | rfl
    · simp only [null, Bool.false_eq_true, if_false]
      cases comparer with
      | contains => simp [ofLayout_ok, write_containment, write_document]
      | notContains => simp [ofLayout_ok, write_containment, write_document]
      | arrayContains => simp [ofLayout_ok, write_containment, write_element]
      | _ => exact (write_comparison _ _ v _).symm

def writeEach (clauses : List Clause) : Compiler (List String) :=
  clauses.mapM fun c => c.sql.write

theorem write_enclosed (o : Operator) (clauses : List Clause) :
    (Clause.enclosed o clauses).sql.write = do
      let texts ← writeEach clauses
      return "(" ++ (" " ++ o.sql ++ " ").intercalate texts ++ ")" := by
  have pieces : (Clause.enclosed o clauses).sql =
      .text "(" :: (Sql.joined (" " ++ o.sql ++ " ") (clauses.map Clause.sql) ++ [.text ")"]) := by
    rw [← Clause.sql_joined, Clause.enclosed, Clause.sql_append]
    rfl
  have each : (clauses.map Clause.sql).mapM write = writeEach clauses := List.mapM_map
  rw [pieces]
  simp [write_append, write_joined, each, String.append_assoc]

/-- An inner group is never left out. -/
theorem write_nested (o : Operator) (clauses : List Clause) :
    some <$> (Clause.nested o clauses).sql.write = grouped o true <$> writeEach clauses := by
  match clauses with
  | [] => cases o <;> rfl
  | [c] => simp [Clause.nested, write_enclosed, writeEach, grouped]
  | c :: other :: clauses => simp [Clause.nested, write_enclosed, writeEach, grouped]

def writeAny : Option Clause → Compiler (Option String)
  | none => return none
  | some c => some <$> c.sql.write

theorem writeAny_top (clauses : List Clause) :
    writeAny (Clause.top clauses) = grouped .and false <$> writeEach clauses := by
  match clauses with
  | [] => rfl
  | [c] => simp [Clause.top, writeAny, writeEach, grouped]
  | c :: other :: clauses => simp [Clause.top, writeAny, write_enclosed, writeEach, grouped]

mutual
theorem part_eq (d : Dialect) (table : String) (c : Condition) :
    part d table c = some <$> ofLayout ((Clause.ofCondition d table c).map Clause.sql) := by
  cases c with
  | leaf column comparer operand =>
    rw [part, leaf_eq, Clause.ofCondition]
    cases d.leaf table column comparer operand with
    | error e => rfl
    | ok s => simp [Except.map, ofLayout_ok, Clause.sql, ClauseToken.sql]
  | group o children =>
    rw [part, parts_eq, Clause.ofCondition]
    cases Clause.ofConditions d table children with
    | error e => rfl
    | ok clauses => exact (write_nested o clauses).symm

theorem parts_eq (d : Dialect) (table : String) (cs : List Condition) :
    parts d table cs = liftM (Clause.ofConditions d table cs) >>= writeEach := by
  cases cs with
  | nil => rfl
  | cons c cs =>
    rw [parts, part_eq, parts_eq, Clause.ofConditions]
    cases Clause.ofCondition d table c with
    | error e => rfl
    | ok first =>
      cases Clause.ofConditions d table cs with
      | error e =>
        rw [bind_map_left]
        exact write_bind_throw first.sql e
      | ok rest =>
        show (do
          let text ← some <$> first.sql.write
          return text.toList ++ (← writeEach rest)) = writeEach (first :: rest)
        simp [writeEach]
end

theorem conditions_eq (d : Dialect) (table : String) (terms : List Condition) :
    conditions d table terms = liftM (Clause.ofTerms d table terms) >>= writeAny := by
  rw [conditions, parts_eq, Clause.ofTerms]
  cases Clause.ofConditions d table terms with
  | error e => rfl
  | ok clauses => exact (writeAny_top clauses).symm

theorem guarded_eq (d : Dialect) (word table : String) (terms : List Condition) :
    guarded d word table terms = ofLayout (d.guarded word table terms) := by
  rw [guarded, conditions_eq, Dialect.guarded]
  cases Clause.ofTerms d table terms with
  | error e => rfl
  | ok clause =>
    cases clause with
    | none => rfl
    | some c => exact (bind_map_left ..).trans (write_cons_text _ _).symm

theorem joinCondition_eq (d : Dialect) (table : String) (j : Join) :
    joinCondition d (d.naming.storageName table) j = ofLayout (d.joinCondition table j) := by
  unfold joinCondition Dialect.joinCondition
  cases j.conditions with
  | none => exact (write_text _).symm
  | some terms =>
    dsimp only
    rw [conditions_eq]
    cases Clause.ofTerms d j.table terms with
    | error e => rfl
    | ok clause =>
      cases clause with
      | none => rfl
      | some c => exact (bind_map_left ..).trans (bind_pure _)

theorem join_eq (d : Dialect) (table : String) (j : Join) :
    (" " ++ ·) <$> join d (d.naming.storageName table) j = ofLayout (d.join table j) := by
  unfold join Dialect.join
  split_ifs
  · rfl
  · rw [map_pure]
    exact (write_text _).symm
  · rw [joinCondition_eq, ← ofLayout_text]
    simp [String.append_assoc]

theorem joins_eq (d : Dialect) (table : String) (js : List Join) :
    joins d (d.naming.storageName table) js = ofLayout (d.joins table js) := by
  induction js with
  | nil => rfl
  | cons j js ih =>
    rw [joins, ih, Dialect.joins, ← ofLayout_append, ← join_eq, bind_map_left]

theorem write_commaNames (word : String) (names : List String) :
    (Dialect.commaNames word names).write = pure (commaNames word names) := by
  unfold Dialect.commaNames commaNames
  split_ifs
  · rfl
  · simp [write_listed]

theorem write_limits (spec : Spec) : (Dialect.limits spec).write = pure (limits spec) := by
  have skipped (n : UInt64) :
      write (if 0 < n then [.text (" OFFSET " ++ n.toNat.repr)] else []) =
        pure (if 0 < n then " OFFSET " ++ n.toNat.repr else "") := by
    split_ifs
    · exact write_text _
    · rfl
  unfold Dialect.limits limits
  cases spec.window with
  | some w => simp [skipped]
  | none => cases spec.limit <;> cases spec.offset <;> simp [skipped]

/-- A select writes its joins, then its filter, and then the condition on its groups. -/
theorem select_eq (d : Dialect) (spec : Spec) : select d spec = ofLayout (d.select spec) := by
  unfold select Dialect.select Dialect.source
  dsimp only
  rw [joins_eq, guarded_eq, guarded_eq]
  cases d.joins spec.table spec.joins with
  | error e => rfl
  | ok joins =>
    cases d.guarded "WHERE" spec.table spec.conditions with
    | error e => exact write_bind_throw joins e
    | ok filter =>
      cases d.guarded "HAVING" spec.table spec.having with
      | error e =>
        exact (congrArg (joins.write >>= ·) (funext fun _ => write_bind_throw filter e)).trans
          (write_bind_throw joins e)
      | ok having =>
        show _ = write (.text "SELECT " :: listed (d.selectList spec) ++
          (.text (" FROM " ++ d.naming.storageName spec.table) :: joins ++ filter) ++ _ ++ having ++
          _ ++ _)
        simp [ofLayout_ok, write_append, write_listed, write_commaNames, write_limits,
          String.append_assoc]

theorem assigned_eq (d : Dialect) (table key : String) (v : Json) :
    assigned d table key v = (d.assigned table key v).write := by
  unfold assigned Dialect.assigned
  split_ifs
  · exact (write_text _).symm
  · exact (write_bind v _).symm

theorem assignment_eq (d : Dialect) (table key : String) (v : Json) :
    assignment d table key v = (d.assignment table key v).write := by
  unfold assignment Dialect.assignment
  cases Dialect.rawText? v with
  | some raw => simp
  | none => simp [assigned_eq]

theorem assignments_eq (d : Dialect) (table : String) (values : Record) :
    assignments d table values = (d.assignments table values).write := by
  rw [assignments, Dialect.assignments, write_joined, List.mapM_map]
  simp [assignment_eq, Function.comp_def]

theorem onConflict_eq (d : Dialect) (table : String) (u : Upsert) :
    onConflict d table u = ofLayout (d.onConflict table u) := by
  obtain ⟨columns, action⟩ := u
  have target : write (if columns.isEmpty then []
      else .text " (" :: listed (columns.map d.naming.storageName) ++ [.text ")"]) =
      pure (if columns.isEmpty then ""
        else " (" ++ ", ".intercalate (columns.map d.naming.storageName) ++ ")") := by
    split_ifs <;> simp [write_append, write_listed, String.append_assoc]
  unfold onConflict Dialect.onConflict
  dsimp only
  generalize (if columns.isEmpty then [] else _ : Sql) = pieces at target ⊢
  generalize (if columns.isEmpty then "" else _ : String) = text at target ⊢
  by_cases refused : (columns.isEmpty && action ≠ .nothing) = true
  · rw [if_pos refused, if_pos refused]
    rfl
  rw [if_neg refused, if_neg refused]
  match action with
  | .nothing => simp [ofLayout_ok, write_append, target, String.append_assoc]
  | .update (.object (e :: rest)) =>
    simp [ofLayout_ok, write_append, target, assignments_eq, String.append_assoc]
  | .update (.object []) | .merge [] => rfl
  | .update .null | .update (.bool _) | .update (.number _) | .update (.string _)
  | .update (.array _) => rfl
  | .merge (c :: rest) =>
    simp [ofLayout_ok, write_append, target, write_listed, String.append_assoc]

theorem inserted_eq (d : Dialect) (spec : Spec) :
    inserted d spec = (d.inserted spec).write := by
  have values : (Sql.joined ", " (spec.values.map fun e => d.assigned spec.table e.1 e.2)).write =
      ", ".intercalate <$> spec.values.mapM fun e => assigned d spec.table e.1 e.2 := by
    rw [write_joined, List.mapM_map]
    simp [assigned_eq, Function.comp_def]
  unfold inserted Dialect.inserted
  dsimp only
  split_ifs
  · exact (write_text _).symm
  · simp [write_append, write_listed, values, String.append_assoc]

theorem write_returning (d : Dialect) (spec : Spec) :
    (d.returning spec).write = pure (returning d spec) := by
  simp [Dialect.returning, returning, write_listed]

/-- An insert writes its values before what is to be done about a conflict. -/
theorem insert_eq (d : Dialect) (spec : Spec) : insert d spec = ofLayout (d.insert spec) := by
  unfold insert Dialect.insert
  rw [inserted_eq]
  cases spec.upsert with
  | none =>
    show _ = write (d.inserted spec ++ [] ++ d.returning spec)
    simp [write_append, write_returning]
  | some u =>
    dsimp only
    rw [onConflict_eq]
    cases d.onConflict spec.table u with
    | error e => exact write_bind_throw _ e
    | ok conflict =>
      show _ = write (d.inserted spec ++ conflict ++ d.returning spec)
      simp [ofLayout_ok, write_append, write_returning, String.append_assoc]

/-- An update writes its assignments before its filter. -/
theorem update_eq (d : Dialect) (spec : Spec) : update d spec = ofLayout (d.update spec) := by
  unfold update Dialect.update
  split_ifs
  · rfl
  rw [assignments_eq, guarded_eq]
  cases d.guarded "WHERE" spec.table spec.conditions with
  | error e => exact write_bind_throw _ e
  | ok filter =>
    show _ = write (.text ("UPDATE " ++ d.naming.storageName spec.table ++ " SET ") ::
      d.assignments spec.table spec.values ++ filter ++ d.returning spec)
    simp [ofLayout_ok, write_append, write_returning, String.append_assoc]

theorem delete_eq (d : Dialect) (spec : Spec) : delete d spec = ofLayout (d.delete spec) := by
  unfold delete Dialect.delete
  rw [guarded_eq, ← ofLayout_text]
  simp

theorem statement_eq (d : Dialect) (spec : Spec) :
    statement d spec = ofLayout (d.statement spec) := by
  unfold statement Dialect.statement
  cases spec.command with
  | select => exact select_eq d spec
  | insert => exact insert_eq d spec
  | update => exact update_eq d spec
  | delete => exact delete_eq d spec

end Compiler

/-- The text and the parameters of a query are those of its pieces: binding each value where it is
met gives the holes the numbers that they have from left to right. -/
theorem compile_eq (spec : Spec) (config : Config) (schema : Schema) :
    compile spec config schema = ((config.dialect schema).statement spec).map Sql.compiled := by
  rw [compile, Compiler.statement_eq, Compiler.run_ofLayout]
  cases (config.dialect schema).statement spec with
  | error e => rfl
  | ok s => rfl

theorem compile_eq_ok {spec : Spec} {config : Config} {schema : Schema} {c : Compiled} :
    compile spec config schema = .ok c ↔
      ∃ s, (config.dialect schema).statement spec = .ok s ∧ s.compiled = c := by
  rw [compile_eq, map_eq_ok]

end DataAccess
