import DataAccess.Proofs.Outcome
import DataAccess.Proofs.Sql.Precedence

/-!
The mistakes in a query, all of them and in the order in which they count. Whoever writes the query
as SQL stops at the first one, and nothing else keeps a query from being written.
-/
namespace DataAccess

/-- Of some mistakes the first is what a computation fails with. Without mistakes it succeeds. -/
def Reports {ε α : Type} : List ε → Except ε α → Prop
  | [], x => ∃ a, x = .ok a
  | e :: _, x => x = .error e

namespace Reports
variable {ε α β : Type} {fs gs : List ε}

theorem ok (a : α) : Reports ([] : List ε) (.ok a) := ⟨a, rfl⟩

theorem error (e : ε) (fs : List ε) : Reports (e :: fs) (.error e : Except ε α) := rfl

/-- The mistakes of the first step come before those of the next one. -/
theorem bind {first : Except ε α} {next : α → Except ε β} (h : Reports fs first)
    (hn : ∀ a, first = .ok a → Reports gs (next a)) : Reports (fs ++ gs) (first >>= next) := by
  cases fs with
  | nil =>
    obtain ⟨a, rfl⟩ := h
    exact hn a rfl
  | cons e fs =>
    have hf : first = .error e := h
    rw [hf]
    rfl

/-- A last step that makes no mistake of its own. -/
theorem andThen {first : Except ε α} {next : α → Except ε β} (h : Reports fs first)
    (hn : ∀ a, first = .ok a → ∃ b, next a = .ok b) : Reports fs (first >>= next) := by
  have both : Reports (fs ++ []) (first >>= next) := h.bind hn
  rwa [List.append_nil] at both

theorem map {x : Except ε α} (h : Reports fs x) (f : α → β) : Reports fs (x.map f) :=
  h.andThen fun a _ => ⟨f a, rfl⟩

theorem error_iff {x : Except ε α} (h : Reports fs x) (e : ε) :
    x = .error e ↔ fs.head? = some e := by
  cases fs with
  | nil =>
    obtain ⟨a, rfl⟩ := h
    simp
  | cons f fs =>
    have hx : x = .error f := h
    simp [hx]

theorem ok_iff {x : Except ε α} (h : Reports fs x) : (∃ a, x = .ok a) ↔ fs = [] := by
  cases fs with
  | nil => exact ⟨fun _ => rfl, fun _ => h⟩
  | cons f fs =>
    have hx : x = .error f := h
    simp [hx]

end Reports

def Comparison.faults : Comparison → List Error
  | ⟨_, comparer, .value .null⟩ =>
    if comparer = .eq ∨ comparer = .ne then [] else [.nullComparison comparer.keyword]
  | _ => []

def Condition.faults (terms : List Condition) : List Error :=
  (Condition.leavesOf terms).flatMap Comparison.faults

def Join.conditionFaults (j : Join) : List Error :=
  match j.conditions with
  | none => []
  | some [] => [.invalidJoin (.noConditions j.table)]
  | some terms => Condition.faults terms

def Join.faults (j : Join) : List Error :=
  (if isBlankText j.table then [.invalidJoin .emptyTable] else []) ++
    if j.required = .none then [] else j.conditionFaults

def Upsert.faults (u : Upsert) : List Error :=
  (if u.columns = [] ∧ u.action ≠ .nothing then [.invalidValues .noTarget] else []) ++
    match u.action with
    | .nothing | .update (.object (_ :: _)) | .merge (_ :: _) => []
    | .update v => [.invalidValues (.noReplacement v)]
    | .merge [] => [.invalidValues .noMergedColumn]

/-- The mistakes in a query, as far as they concern its command. -/
def Spec.faults (s : Spec) : List Error :=
  match s.command with
  | .select =>
    s.joins.flatMap Join.faults ++ Condition.faults s.conditions ++ Condition.faults s.having
  | .insert => s.upsert.toList.flatMap Upsert.faults
  | .update =>
    (if s.values = [] then [.invalidValues .noAssignment] else []) ++ Condition.faults s.conditions
  | .delete => Condition.faults s.conditions

theorem Condition.faults_cons (c : Condition) (cs : List Condition) :
    faults (c :: cs) = c.leaves.flatMap Comparison.faults ++ faults cs := by
  simp [faults, leavesOf]

section
variable (d : Dialect)

theorem reports_nullTest (target column : String) (comparer : Comparer) :
    Reports (Comparison.faults ⟨column, comparer, .value .null⟩) (nullTest target comparer) := by
  cases comparer with
  | eq | ne => exact .ok _
  | _ => exact .error _ []

theorem reports_leaf (table : String) (x : Comparison) :
    Reports x.faults (d.leaf table x.column x.comparer x.operand) := by
  obtain ⟨column, comparer, operand⟩ := x
  cases operand with
  | column other =>
    simp only [Dialect.leaf, Comparison.faults]
    split
    · exact .ok _
    · exact .ok _
  | value v =>
    cases v with
    | null => exact reports_nullTest _ column comparer
    | bool | number | string | array | object => cases comparer <;> exact .ok _

mutual
theorem reports_ofCondition (table : String) (c : Condition) :
    Reports (c.leaves.flatMap Comparison.faults) (Clause.ofCondition d table c) := by
  cases c with
  | leaf column comparer operand =>
    have h := reports_leaf d table ⟨column, comparer, operand⟩
    rw [Condition.leaves, List.flatMap_singleton]
    exact h.map fun s => [ClauseToken.atom s]
  | group o children => exact (reports_ofConditions table children).map (Clause.nested o)

theorem reports_ofConditions (table : String) (cs : List Condition) :
    Reports (Condition.faults cs) (Clause.ofConditions d table cs) := by
  cases cs with
  | nil => exact .ok []
  | cons c rest =>
    rw [Condition.faults_cons]
    apply (reports_ofCondition table c).bind
    intro part _
    apply (reports_ofConditions table rest).andThen
    intro parts _
    exact ⟨part :: parts, rfl⟩
end

theorem reports_ofTerms (table : String) (terms : List Condition) :
    Reports (Condition.faults terms) (Clause.ofTerms d table terms) :=
  (reports_ofConditions d table terms).map Clause.top

variable {d} in
theorem Clause.ofTerms_eq_none {table : String} {terms : List Condition} {clause : Option Clause}
    (h : ofTerms d table terms = .ok clause) : clause = none ↔ terms = [] := by
  obtain ⟨parts, hp, rfl⟩ := map_eq_ok.mp h
  rw [top_eq_none, ← List.length_eq_zero_iff, length_ofConditions hp, List.length_eq_zero_iff]

theorem reports_guarded (word table : String) (terms : List Condition) :
    Reports (Condition.faults terms) (d.guarded word table terms) := by
  apply (reports_ofTerms d table terms).andThen
  intro clause _
  cases clause with
  | none => exact ⟨_, rfl⟩
  | some c => exact ⟨_, rfl⟩

theorem reports_joinCondition (table : String) (j : Join) :
    Reports j.conditionFaults (d.joinCondition table j) := by
  unfold Dialect.joinCondition Join.conditionFaults
  cases j.conditions with
  | none => exact .ok _
  | some terms =>
    cases terms with
    | nil => exact .error _ []
    | cons t ts =>
      apply (reports_ofTerms d j.table (t :: ts)).andThen
      intro clause hc
      cases clause with
      | none => exact absurd (Clause.ofTerms_eq_none hc |>.mp rfl) (List.cons_ne_nil t ts)
      | some c => exact ⟨_, rfl⟩

theorem reports_join (table : String) (j : Join) : Reports j.faults (d.join table j) := by
  unfold Dialect.join Join.faults
  by_cases blank : isBlankText j.table
  · rw [if_pos blank, if_pos blank]
    exact .error _ _
  rw [if_neg blank, if_neg blank, List.nil_append]
  by_cases crossed : j.required = .none
  · rw [if_pos crossed]
    simp only [if_pos crossed]
    exact .ok _
  · rw [if_neg crossed]
    simp only [if_neg crossed]
    exact (reports_joinCondition d table j).andThen fun on _ => ⟨_, rfl⟩

theorem reports_joins (table : String) (js : List Join) :
    Reports (js.flatMap Join.faults) (d.joins table js) := by
  induction js with
  | nil => exact .ok []
  | cons j js ih =>
    rw [List.flatMap_cons]
    apply (reports_join d table j).bind
    intro clause _
    exact ih.andThen fun rest _ => ⟨_, rfl⟩

theorem reports_select (s : Spec) :
    Reports (s.joins.flatMap Join.faults ++ Condition.faults s.conditions ++
      Condition.faults s.having) (d.select s) := by
  have source : Reports (s.joins.flatMap Join.faults ++ Condition.faults s.conditions)
      (d.source s) := by
    apply (reports_joins d s.table s.joins).bind
    intro joins _
    exact (reports_guarded d "WHERE" s.table s.conditions).andThen fun filter _ => ⟨_, rfl⟩
  apply source.bind
  intro text _
  exact (reports_guarded d "HAVING" s.table s.having).andThen fun having _ => ⟨_, rfl⟩

theorem reports_onConflict (table : String) (u : Upsert) :
    Reports u.faults (d.onConflict table u) := by
  obtain ⟨columns, action⟩ := u
  unfold Dialect.onConflict Upsert.faults
  dsimp only
  by_cases untargeted : columns = [] ∧ action ≠ .nothing
  · have h : (columns.isEmpty && decide (action ≠ .nothing)) = true := by simpa using untargeted
    rw [if_pos untargeted, if_pos h]
    exact .error _ _
  · have h : ¬ (columns.isEmpty && decide (action ≠ .nothing)) = true := by simpa using untargeted
    rw [if_neg untargeted, if_neg h, List.nil_append]
    cases action with
    | nothing => exact .ok _
    | merge columns =>
      cases columns with
      | nil => exact .error _ []
      | cons c cs => exact .ok _
    | update v =>
      cases v with
      | object fields =>
        cases fields with
        | nil => exact .error _ []
        | cons e rest => exact .ok _
      | null | bool | number | string | array => exact .error _ []

/-- Writing a query as SQL stops at the first mistake in it. -/
theorem reports_statement (s : Spec) : Reports s.faults (d.statement s) := by
  unfold Dialect.statement Spec.faults
  cases s.command with
  | select => exact reports_select d s
  | insert =>
    dsimp only [Dialect.insert]
    cases s.upsert with
    | none => exact .ok _
    | some u =>
      rw [Option.toList_some, List.flatMap_singleton]
      exact (reports_onConflict d s.table u).andThen fun conflict _ => ⟨_, rfl⟩
  | update =>
    dsimp only [Dialect.update]
    cases s.values with
    | nil => exact .error _ _
    | cons e rest =>
      exact (reports_guarded d "WHERE" s.table s.conditions).andThen fun filter _ => ⟨_, rfl⟩
  | delete =>
    exact (reports_guarded d "WHERE" s.table s.conditions).andThen fun filter _ => ⟨_, rfl⟩
end

theorem reports_compile (spec : Spec) (config : Config) (schema : Schema) :
    Reports spec.faults (compile spec config schema) := by
  rw [compile_eq]
  exact (reports_statement _ spec).map Sql.compiled

/-- A query is refused for the first mistake in it, and is compiled if there is none. So neither the
names of things nor the types of columns have a part in it. -/
theorem compile_refused_for_first_fault (spec : Spec) (config : Config) (schema : Schema) :
    (∀ e, compile spec config schema = .error e ↔ spec.faults.head? = some e) ∧
      ((∃ c, compile spec config schema = .ok c) ↔ spec.faults = []) ∧
      ∀ (config' : Config) (schema' : Schema) (e : Error),
        compile spec config schema = .error e ↔ compile spec config' schema' = .error e := by
  have here := reports_compile spec config schema
  refine ⟨here.error_iff, here.ok_iff, ?_⟩
  intro config' schema' e
  have there := reports_compile spec config' schema'
  rw [here.error_iff, there.error_iff]

end DataAccess
