import DataAccess.Proofs.Sql.Placeholders
import DataAccess.Proofs.Sql.Refusal

/-! Queries that are stripped of their window, and how that shows in their statement. -/
namespace DataAccess

theorem Sql.listed_append_last (names : List String) (last : String) (h : names ≠ []) :
    Sql.listed (names ++ [last]) = Sql.listed names ++ [.text ", ", .text last] := by
  induction names with
  | nil => contradiction
  | cons name names ih =>
    cases names with
    | nil => rfl
    | cons next names =>
      have others := ih (List.cons_ne_nil next names)
      unfold listed at others ⊢
      simp only [List.cons_append, List.map_cons, joined] at others ⊢
      rw [others]
      simp only [List.append_assoc]

theorem Dialect.keys_ne_nil (d : Dialect) (ks : List String) : d.keys ks ≠ [] := by
  unfold keys
  split
  · exact List.cons_ne_nil _ _
  next some_key =>
    intro none
    exact some_key (by rw [List.map_eq_nil_iff.mp none]; rfl)

namespace Spec

/-- A window that a single row makes no use of. -/
def dropsWindow (s : Spec) : Prop :=
  s.first ≠ .all ∧ s.window.isSome = true ∧ s.command = .select

theorem command_unpaged (s : Spec) : s.unpaged.command = s.command := by
  unfold unpaged
  split <;> rfl

theorem unpaged_of_window {s : Spec} (h : s.window = none) : s.unpaged = s := by
  unfold unpaged
  split
  · rfl
  · rw [← h]

variable {s : Spec} {config : Config} {schema : Schema}

/-- Only selects have a window in their statement. -/
theorem compile_unpaged (h : ¬ s.dropsWindow) :
    compile s.unpaged config schema = compile s config schema := by
  cases hw : s.window with
  | none => rw [unpaged_of_window hw]
  | some window =>
    unfold unpaged
    split
    · rfl
    next single =>
      rw [compile_eq, compile_eq]
      unfold Dialect.statement
      cases hc : s.command with
      | select => exact absurd ⟨single, by rw [hw]; rfl, hc⟩ h
      | insert => rfl
      | update => rfl
      | delete => rfl

theorem matches_compile_unpaged (s : Spec) (config : Config) (schema : Schema) :
    BothSucceed (compile s config schema) (compile s.unpaged config schema) := by
  by_cases drops : s.dropsWindow
  · have rows : s.SameRows s.unpaged := by
      unfold unpaged
      split
      · exact ⟨rfl, rfl, rfl, rfl⟩
      · exact ⟨rfl, rfl, rfl, rfl⟩
    have selects := drops.2.2
    exact matches_compile_select selects (s.command_unpaged.trans selects) rows _ _ _ _
  · rw [compile_unpaged drops]
    exact matches_compile s config config schema schema

theorem select_ok {d : Dialect} {sql : Sql} (h : d.statement s = .ok sql)
    (selects : s.command = .select) :
    ∃ table rest, sql = .text "SELECT " :: (Sql.listed (d.selectList s) ++
      .text (" FROM " ++ table) :: rest) := by
  unfold Dialect.statement at h
  rw [selects] at h
  obtain ⟨source, hs, h⟩ := bind_eq_ok.mp h
  obtain ⟨having, -, h⟩ := bind_eq_ok.mp h
  cases h
  obtain ⟨joins, -, hs⟩ := bind_eq_ok.mp hs
  obtain ⟨filter, -, hs⟩ := bind_eq_ok.mp hs
  cases hs
  exact ⟨d.naming.storageName s.table, _, by simp only [List.cons_append, List.append_assoc]; rfl⟩

/-- With the window a statement names one more column, where without it the tables follow. -/
theorem compile_unpaged_ne (h : s.dropsWindow) {c stripped : Compiled}
    (hc : compile s config schema = .ok c)
    (hs : compile s.unpaged config schema = .ok stripped) : stripped.sql ≠ c.sql := by
  obtain ⟨sql, hsql, rfl⟩ := compile_eq_ok.mp hc
  obtain ⟨other, hother, rfl⟩ := compile_eq_ok.mp hs
  obtain ⟨single, windowed, selects⟩ := h
  obtain ⟨table, rest, rfl⟩ := select_ok hsql selects
  obtain ⟨table', rest', rfl⟩ := select_ok hother (s.command_unpaged.trans selects)
  have counted : (config.dialect schema).selectList s =
      (config.dialect schema).keys s.select ++ ["COUNT(*) OVER() AS total"] := by
    rw [Dialect.selectList, if_pos windowed]
  have plain : (config.dialect schema).selectList s.unpaged =
      (config.dialect schema).keys s.select := by
    rw [unpaged, if_neg single]
    exact List.append_nil _
  intro same
  have chars := String.ofList_injective same
  rw [counted, Sql.listed_append_last _ _ (Dialect.keys_ne_nil _ _), plain] at chars
  simp only [Sql.charsFrom, Sql.charsFrom_append, List.append_assoc] at chars
  have parted := List.append_cancel_left (List.append_cancel_left chars)
  have first := congrArg List.head? parted
  simp at first

end Spec
end DataAccess
