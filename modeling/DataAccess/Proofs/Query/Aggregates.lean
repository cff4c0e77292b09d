import DataAccess.Proofs.Query.Reading
import DataAccess.Proofs.Sql.Assignments

/-!
Counts and sums over the rows of a query. Their statement has the tables, joins and filters of the
query under a select list of their own: what else the query asks for does not show in it, neither in
the text nor in the numbers of the placeholders.
-/
namespace DataAccess

/-- What is asked about the rows of a query: how many there are, in how many of them a key is not
null, or the sum of a key. -/
inductive Aggregate where
  | count (key : Option String)
  | sum (key : String)

namespace Aggregate

def spec (naming : Naming) (s : Spec) : Aggregate → Spec
  | count key => s.counted naming key
  | sum key => s.summed naming key

def text (naming : Naming) (table : String) : Aggregate → String
  | count none => "COUNT(*)::bigint AS count"
  | count (some key) =>
    "COUNT(" ++ naming.storageName table ++ "." ++ naming.storageName key ++ ")::bigint AS count"
  | sum key =>
    "SUM(" ++ naming.storageName table ++ "." ++ naming.storageName key ++ ")::float8 AS sum"

theorem spec_eq (naming : Naming) (s : Spec) (a : Aggregate) :
    ∃ field, a.spec naming s = s.aggregate (":" ++ a.text naming s.table) field := by
  cases a with
  | count key =>
    refine ⟨"count", ?_⟩
    cases key <;> simp [spec, Spec.counted, Spec.qualified, text, ← String.append_assoc]
  | sum key =>
    refine ⟨"sum", ?_⟩
    simp [spec, Spec.summed, Spec.qualified, text, ← String.append_assoc]

end Aggregate

namespace Dialect

theorem params_commaNames (word : String) (names : List String) :
    (commaNames word names).params = [] := by
  unfold commaNames
  split_ifs
  · rfl
  · exact Sql.params_listed names

theorem params_limits (s : Spec) : (limits s).params = [] := by
  unfold limits
  dsimp only
  rw [Sql.params_append, List.append_eq_nil_iff]
  constructor
  · split <;> rfl
  · split
    · split_ifs <;> rfl
    · rfl

def ending (d : Dialect) (s : Spec) : Sql :=
  commaNames "ORDER BY" (s.sort.map d.naming.sortKey) ++ limits s

theorem params_ending (d : Dialect) (s : Spec) : (d.ending s).params = [] := by
  rw [ending, Sql.params_append, params_commaNames, params_limits]
  rfl

/-- The rows of a query: its table, its joins and its filter. -/
theorem source_ok {d : Dialect} {s : Spec} {source : Sql} (h : d.source s = .ok source) :
    ∃ joins filter, d.joins s.table s.joins = .ok joins ∧
      d.guarded "WHERE" s.table s.conditions = .ok filter ∧
      source.params = joins.params ++ filter.params ∧
      source.textFrom 1 = " FROM " ++ d.naming.storageName s.table ++ joins.textFrom 1 ++
        filter.textFrom (1 + joins.params.length) := by
  obtain ⟨joins, hj, h⟩ := bind_eq_ok.mp h
  obtain ⟨filter, hf, h⟩ := bind_eq_ok.mp h
  cases h
  refine ⟨joins, filter, hj, hf, Sql.params_append _ _, ?_⟩
  rw [Sql.textFrom_append, Sql.textFrom_text]
  rfl

end Dialect

structure Spec.Ungrouped (s : Spec) : Prop where
  selects : s.command = .select
  groupBy : s.groupBy = []
  having : s.having = []

/-- An ungrouped select is its list, its rows, and how they are put out. -/
theorem Dialect.select_eq (d : Dialect) {s : Spec} (h : s.Ungrouped) :
    d.select s = (d.source s).map fun source =>
      .text "SELECT " :: Sql.listed (d.selectList s) ++ source ++ d.ending s := by
  have ungrouped : commaNames "GROUP BY" (s.groupBy.map d.naming.column) = [] := by
    rw [h.groupBy]
    rfl
  have unguarded : d.guarded "HAVING" s.table s.having = .ok [] := by
    rw [h.having]
    rfl
  unfold select
  rw [unguarded, ungrouped]
  cases d.source s with
  | error e => rfl
  | ok source => exact congrArg Except.ok (by simp [ending])

section
variable {s : Spec}

/-- The text and the parameters of an ungrouped select. -/
theorem compile_ungrouped (h : s.Ungrouped) (config : Config) (schema : Schema) :
    compile s config schema = ((config.dialect schema).source s).map fun source =>
      ⟨"SELECT " ++ ", ".intercalate ((config.dialect schema).selectList s) ++ source.textFrom 1 ++
        ((config.dialect schema).ending s).textFrom 1, source.params⟩ := by
  let d := config.dialect schema
  have selected : d.statement s = d.select s := by
    unfold Dialect.statement
    rw [h.selects]
  rw [compile_eq, selected, d.select_eq h]
  cases d.source s with
  | error e => rfl
  | ok source =>
    let head : Sql := .text "SELECT " :: Sql.listed (d.selectList s)
    have head_params : head.params = [] := Sql.params_listed _
    have head_text : head.textFrom 1 = "SELECT " ++ ", ".intercalate (d.selectList s) := by
      rw [Sql.textFrom_text, Sql.textFrom_listed]
    have written : (head ++ source ++ d.ending s).compiled =
        ⟨"SELECT " ++ ", ".intercalate (d.selectList s) ++ source.textFrom 1 ++
          (d.ending s).textFrom 1, source.params⟩ := by
      simp only [Sql.compiled_eq, Sql.textFrom_append, Sql.params_append, head_params, head_text,
        d.params_ending, List.nil_append, List.append_nil, List.length_nil, Nat.add_zero]
      rw [Sql.textFrom_of_params_eq_nil (d.params_ending s) _ 1]
    exact congrArg Except.ok written

/-- An aggregate is written like the query whose rows it is about, under its own list. -/
theorem Aggregate.compile_spec (h : s.Ungrouped) (config : Config) (schema : Schema)
    (a : Aggregate) :
    compile (a.spec config.naming s) config schema =
      ((config.dialect schema).source s).map fun source =>
        ⟨"SELECT " ++ a.text config.naming s.table ++ source.textFrom 1, source.params⟩ := by
  let d := config.dialect schema
  obtain ⟨field, written⟩ := a.spec_eq config.naming s
  let t := s.aggregate (":" ++ a.text config.naming s.table) field
  have list : d.selectList t = [a.text config.naming s.table] := by
    simp [t, Dialect.selectList, Spec.aggregate, Dialect.keys, Naming.selectKey, Text.unmarked]
  have bare : (d.ending t).textFrom 1 = "" := rfl
  have ungrouped : t.Ungrouped := ⟨rfl, h.groupBy, h.having⟩
  rw [written, compile_ungrouped ungrouped, list, bare]
  simp only [String.intercalate_singleton, String.append_empty]
  rfl

/-- Whatever an ungrouped select lists, and however it puts its rows out: what counts or sums these
rows has their tables, joins and filter and nothing else, with the parameters of the select, and it
is refused for the reason for which the select is refused. -/
theorem aggregates_keep_rows (h : s.Ungrouped) (config : Config) (schema : Schema) :
    let d := config.dialect schema
    (∀ c, compile s config schema = .ok c → ∃ joins filter,
      d.joins s.table s.joins = .ok joins ∧
      d.guarded "WHERE" s.table s.conditions = .ok filter ∧
      let rows := " FROM " ++ config.naming.storageName s.table ++ joins.textFrom 1 ++
        filter.textFrom (1 + joins.params.length)
      c.params = joins.params ++ filter.params ∧
      c.sql = "SELECT " ++ ", ".intercalate (d.selectList s) ++ rows ++ (d.ending s).textFrom 1 ∧
      ∀ a : Aggregate, compile (a.spec config.naming s) config schema =
        .ok ⟨"SELECT " ++ a.text config.naming s.table ++ rows, c.params⟩) ∧
    ∀ (a : Aggregate) e, compile (a.spec config.naming s) config schema = .error e ↔
      compile s config schema = .error e := by
  intro d
  constructor
  · intro c hc
    rw [compile_ungrouped h] at hc
    obtain ⟨source, hs, rfl⟩ := map_eq_ok.mp hc
    obtain ⟨joins, filter, hj, hf, params, text⟩ := Dialect.source_ok hs
    have rows : source.textFrom 1 = " FROM " ++ config.naming.storageName s.table ++
        joins.textFrom 1 ++ filter.textFrom (1 + joins.params.length) := text
    refine ⟨joins, filter, hj, hf, ?_⟩
    dsimp only
    rw [← rows]
    refine ⟨params, rfl, fun a => ?_⟩
    rw [a.compile_spec h, hs]
    rfl
  · intro a e
    rw [a.compile_spec h, compile_ungrouped h, map_eq_error, map_eq_error]

/-- The sum over a page of users and their orders repeats the conditions on both, with their
numbers. -/
theorem aggregates_keep_rows_join :
    let s : Spec := {
      table := "users"
      select := ["id", "orders.total"]
      joins := [{
        table := "orders"
        conditions := some [.leaf "orders.userId" .eq (.column "users.id"),
          .leaf "placedOn" .gt (.value (.string "2020-01-01"))] }]
      conditions := [.leaf "users.age" .gt (.value (.ofInt 30))]
      sort := ["-orders.total"]
      window := some ⟨20, 10⟩ }
    let schema : Schema := [("orders", [("placed_on", ⟨"date"⟩)])]
    let rows := " FROM users INNER JOIN orders ON (orders.user_id = users.id AND " ++
      "\"placed_on\" > $1::date) WHERE users.age > $2"
    let params := [.string "2020-01-01", .ofInt 30]
    s.Ungrouped ∧
      compile s {} schema = .ok ⟨"SELECT id, orders.total, COUNT(*) OVER() AS total" ++ rows ++
        " ORDER BY orders.total DESC LIMIT 10 OFFSET 20", params⟩ ∧
      compile ((Aggregate.sum "netPrice").spec {} s) {} schema =
        .ok ⟨"SELECT SUM(users.net_price)::float8 AS sum" ++ rows, params⟩ := by
  intro s schema rows params
  have ungrouped : s.Ungrouped := ⟨rfl, rfl, rfl⟩
  have compiled : compile s {} schema = .ok ⟨"SELECT id, orders.total, COUNT(*) OVER() AS total" ++
      rows ++ " ORDER BY orders.total DESC LIMIT 10 OFFSET 20", params⟩ :=
    eq_ok_of_toOption (by decide +kernel)
  obtain ⟨joins, filter, hj, hf, -, -, aggregated⟩ :=
    (aggregates_keep_rows ungrouped {} schema).1 _ compiled
  let d := ({} : Config).dialect schema
  have joinText : (d.joins s.table s.joins).map (fun j => (j.textFrom 1, j.params.length)) =
      .ok (" INNER JOIN orders ON (orders.user_id = users.id AND \"placed_on\" > $1::date)", 1) :=
    eq_ok_of_toOption (by decide +kernel)
  have filterText : (d.guarded "WHERE" s.table s.conditions).map (Sql.textFrom 2) =
      .ok " WHERE users.age > $2" := eq_ok_of_toOption (by decide +kernel)
  rw [hj] at joinText
  rw [hf] at filterText
  obtain ⟨joined, numbered⟩ := Prod.mk.inj (Except.ok.inj joinText)
  refine ⟨ungrouped, compiled, ?_⟩
  rw [aggregated, joined, numbered, Except.ok.inj filterText]
  exact eq_ok_of_toOption (by decide +kernel)

end

section
variable {σ : Type} [Link σ] {good : Option Address → σ → Prop}
  {answers : String → List Json → List Record → Prop} {n : Nat} {v w : World σ} {spec : Spec}

/-- From `w` to `v` session `n` has asked this about the rows of a query: column types, and then one
statement with the rows and the parameters of the query. -/
def World.AsksRows (good : Option Address → σ → Prop) (n : Nat) (a : Aggregate) (spec : Spec)
    (w v : World σ) : Prop :=
  let config := (w.session n).config
  ∃ schema c rows lookups, compile spec config schema = .ok c ∧
    c.sql = "SELECT " ++ ", ".intercalate ((config.dialect schema).selectList spec) ++ rows ++
      ((config.dialect schema).ending spec).textFrom 1 ∧
    w.Served good n v
      (lookups ++ [("SELECT " ++ a.text config.naming spec.table ++ rows, c.params)]) ∧
    ∀ q ∈ lookups, q.1 = Schema.columnsSql

omit [Link σ] in
theorem World.Runs.asksRows (h : spec.Ungrouped) {a : Aggregate} {rows : List Record}
    (runs : w.Runs good answers n (a.spec (w.session n).config.naming spec) v rows) :
    w.AsksRows good n a spec v := by
  obtain ⟨schema, sent, lookups, hs, -, served, columns⟩ := runs
  rw [a.compile_spec h] at hs
  obtain ⟨source, hsource, rfl⟩ := map_eq_ok.mp hs
  have compiled := compile_ungrouped h (w.session n).config schema
  rw [hsource] at compiled
  exact ⟨schema, _, source.textFrom 1, lookups, compiled, rfl, served, columns⟩

/-- Counts, sums and the totals of pages that show no row ask about the rows of the query. -/
theorem Draft.asks_rows {d : Draft} (served : Link.Serving good answers) (hw : w.Ready good n)
    (hd : d.checked = .ok spec) (h : spec.Ungrouped)
    (writable : spec.Writable (w.session n).config) :
    (∀ key, ∃ result v, (count n d key).start w = (.ok result, v) ∧
      w.AsksRows good n (.count key) spec v) ∧
    (∀ key, ∃ result v, (sum n d key).start w = (.ok result, v) ∧
      w.AsksRows good n (.sum key) spec v) ∧
    ∀ rows, total? rows = none → ∃ p v, (page n spec rows).start w = (.ok p, v) ∧
      w.AsksRows good n (.count none) spec v := by
  have askable (key field : String) :
      (spec.aggregate key field).Writable (w.session n).config :=
    writable.aggregate h.selects key field
  refine ⟨fun key => ?_, fun key => ?_, fun rows unknown => ?_⟩
  · have counted : (spec.counted (w.session n).config.naming key).Writable (w.session n).config :=
      askable _ _
    obtain ⟨rows, v, runs, hv⟩ := count_runs served hw hd counted
    exact ⟨_, v, hv, runs.asksRows (a := .count key) h⟩
  · have summed : (spec.summed (w.session n).config.naming key).Writable (w.session n).config :=
      askable _ _
    obtain ⟨rows, v, runs, hv⟩ := sum_runs served hw hd summed
    exact ⟨_, v, hv, runs.asksRows (a := .sum key) h⟩
  · obtain ⟨counts, v, runs, hv⟩ := page_counted served hw spec unknown (askable _ _)
    exact ⟨_, v, hv, runs.asksRows (a := .count none) h⟩

end
end DataAccess
