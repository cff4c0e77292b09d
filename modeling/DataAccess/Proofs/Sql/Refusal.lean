import DataAccess.Proofs.Sql.Faults
import DataAccess.Query.Aggregate
import Mathlib.Tactic.SplitIfs

/-!
Queries that cannot be written as SQL. Why a query is refused has to do with the query alone,
and not with how things are named and which column types are known.
-/
namespace DataAccess

/-- Two outcomes fail in the same way, by a mistake of the caller, or give related results. -/
def Matches {α β : Type} (r : α → β → Prop) : Except Error α → Except Error β → Prop
  | .ok a, .ok b => r a b
  | .error e, .error f => e = f ∧ e.isValidation = true
  | _, _ => False

namespace Matches
variable {α β : Type} {r : α → β → Prop}

theorem ok {a : α} {b : β} (h : r a b) : Matches r (.ok a) (.ok b) := h

theorem error {e : Error} (h : e.isValidation = true) : Matches r (.error e) (.error e) :=
  ⟨rfl, h⟩

theorem onlyFails {x : Except Error α} {y : Except Error β} (h : Matches r x y) :
    OnlyFails (fun e => e.isValidation = true) x := by
  rintro e rfl
  cases y with
  | error f => exact h.2
  | ok b => exact h.elim

theorem exists_ok {x : Except Error α} {y : Except Error β} (h : Matches r x y) {a : α}
    (hx : x = .ok a) : ∃ b, y = .ok b := by
  subst hx
  cases y with
  | error f => exact h.elim
  | ok b => exact ⟨b, rfl⟩

theorem error_eq {x : Except Error α} {y : Except Error β} (h : Matches r x y) {e : Error}
    (hx : x = .error e) : y = .error e := by
  subst hx
  cases y with
  | error f => exact congrArg Except.error h.1.symm
  | ok b => exact h.elim

end Matches

abbrev BothSucceed {α β : Type} : Except Error α → Except Error β → Prop :=
  Matches fun _ _ => True

def Blames (fs : List Error) : Prop := ∀ e ∈ fs, e.isValidation = true

namespace Blames

theorem nil : Blames [] := List.forall_mem_nil _

theorem single {e : Error} (h : e.isValidation = true) : Blames [e] :=
  List.forall_mem_singleton.mpr h

theorem append {fs gs : List Error} (hf : Blames fs) (hg : Blames gs) : Blames (fs ++ gs) :=
  List.forall_mem_append.mpr ⟨hf, hg⟩

theorem flatMap {α : Type} {f : α → List Error} {as : List α} (h : ∀ a ∈ as, Blames (f a)) :
    Blames (as.flatMap f) := List.forall_mem_flatMap.mpr h

end Blames

/-- Computations that report the same mistakes of the caller fail and succeed together. -/
theorem Matches.of_reports {α β : Type} {fs : List Error} {x : Except Error α} {y : Except Error β}
    (hx : Reports fs x) (hy : Reports fs y) (h : Blames fs) : BothSucceed x y := by
  cases fs with
  | nil =>
    obtain ⟨a, rfl⟩ := hx
    obtain ⟨b, rfl⟩ := hy
    exact .ok trivial
  | cons e fs =>
    have first : x = .error e := hx
    have second : y = .error e := hy
    rw [first, second]
    exact .error (h e List.mem_cons_self)

theorem Condition.blames_faults (terms : List Condition) : Blames (faults terms) := by
  apply Blames.flatMap
  intro x _
  unfold Comparison.faults
  split
  · split_ifs
    · exact .nil
    · exact .single rfl
  · exact .nil

theorem Join.blames_faults (j : Join) : Blames j.faults := by
  apply Blames.append
  · split_ifs
    · exact .single rfl
    · exact .nil
  · unfold Join.conditionFaults
    split_ifs
    · exact .nil
    · split
      · exact .nil
      · exact .single rfl
      · exact Condition.blames_faults _

theorem Upsert.blames_faults (u : Upsert) : Blames u.faults := by
  apply Blames.append
  · split_ifs
    · exact .single rfl
    · exact .nil
  · split <;> first | exact .nil | exact .single rfl

/-- Whatever a query is refused for is a mistake of its caller. -/
theorem Spec.blames_faults (s : Spec) : Blames s.faults := by
  have filter := Condition.blames_faults s.conditions
  unfold Spec.faults
  cases s.command with
  | select =>
    have joins : Blames (s.joins.flatMap Join.faults) := .flatMap fun j _ => j.blames_faults
    exact (joins.append filter).append (Condition.blames_faults s.having)
  | insert => exact .flatMap fun u _ => u.blames_faults
  | update =>
    apply Blames.append _ filter
    split_ifs
    · exact .single rfl
    · exact .nil
  | delete => exact filter

theorem matches_compile (spec : Spec) (c k : Config) (schema other : Schema) :
    BothSucceed (compile spec c schema) (compile spec k other) :=
  .of_reports (reports_compile spec c schema) (reports_compile spec k other) spec.blames_faults

/-- Two queries are about the same rows, as far as their tables and filters go. -/
structure Spec.SameRows (s t : Spec) : Prop where
  table : s.table = t.table
  joins : s.joins = t.joins
  conditions : s.conditions = t.conditions
  having : s.having = t.having

theorem Spec.SameRows.faults_eq {s t : Spec} (h : s.SameRows t) (hs : s.command = .select)
    (ht : t.command = .select) : s.faults = t.faults := by
  unfold Spec.faults
  rw [hs, ht, h.joins, h.conditions, h.having]

/-- Queries about the same rows are selected or refused together. -/
theorem matches_compile_select {s t : Spec} (hs : s.command = .select) (ht : t.command = .select)
    (h : s.SameRows t) (c k : Config) (schema other : Schema) :
    BothSucceed (compile s c schema) (compile t k other) := by
  have reported := reports_compile t k other
  rw [← h.faults_eq hs ht] at reported
  exact .of_reports (reports_compile s c schema) reported s.blames_faults

theorem Spec.sameRows_aggregate (s : Spec) (key field : String) :
    s.SameRows (s.aggregate key field) :=
  ⟨rfl, rfl, rfl, rfl⟩

end DataAccess
