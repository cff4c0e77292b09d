import DataAccess.Proofs.Schema.Lookup
import DataAccess.Proofs.Sql.Sites
import DataAccess.Proofs.Sql.Writing
import DataAccess.Query.Aggregate

/-!
The column types of the tables of a query are all that it takes to write it, unless a column is said
to belong to some other table.
-/
namespace DataAccess
open Text

namespace Site

def table : Site → String
  | leaf table _ | inserted table _ _ | assigned table _ _ => table

def column : Site → String
  | leaf _ comparison => comparison.column
  | inserted _ key _ | assigned _ key _ => key

end Site

/-- What stands before the last dot of a column, if it is neither raw nor a path into a document. -/
def Naming.qualifier? (column : String) : Option String :=
  let s := column.toList
  if (unmarked ':' s).isSome then none else
  let s := (unmarked '!' s).getD s
  if isPath s then none else (cutLast '.' s).map fun p => String.ofList p.1

namespace Schema

theorem column?_restricted (s : Schema) {tables : List String} {table : String}
    (h : table ∈ tables) (column : String) :
    (s.restricted tables).column? table column = s.column? table column := by
  rw [column?, get?_restricted, if_pos h]
  rfl

end Schema

namespace Dialect

def knowing (d : Dialect) (schema : Schema) : Dialect := { d with schema }

@[simp] theorem knowing_naming (d : Dialect) (schema : Schema) :
    (d.knowing schema).naming = d.naming := rfl

@[simp] theorem knowing_schema (d : Dialect) (schema : Schema) :
    (d.knowing schema).schema = schema := rfl

@[simp] theorem knowing_target (d : Dialect) (schema : Schema) (table : String) (s : List Char) :
    (d.knowing schema).target table s = d.target table s := rfl

@[simp] theorem knowing_selectList (d : Dialect) (schema : Schema) (spec : Spec) :
    (d.knowing schema).selectList spec = d.selectList spec := rfl

@[simp] theorem knowing_returning (d : Dialect) (schema : Schema) (spec : Spec) :
    (d.knowing schema).returning spec = d.returning spec := rfl

variable (d : Dialect) (schema : Schema)

/-- The other column types are the same as far as the places are concerned. -/
def Suffices (sites : List Site) : Prop :=
  ∀ site ∈ sites, (d.knowing schema).slot site.table site.column = d.slot site.table site.column

variable {d schema} {table : String}

theorem Suffices.left {first rest : List Site} (h : d.Suffices schema (first ++ rest)) :
    d.Suffices schema first :=
  fun site hs => h site (List.mem_append_left rest hs)

theorem Suffices.right {first rest : List Site} (h : d.Suffices schema (first ++ rest)) :
    d.Suffices schema rest :=
  fun site hs => h site (List.mem_append_right first hs)

theorem leaf_knowing {column : String}
    (h : (d.knowing schema).slot table column = d.slot table column) (comparer : Comparer)
    (operand : Operand) :
    (d.knowing schema).leaf table column comparer operand = d.leaf table column comparer operand := by
  cases operand with
  | column other => rfl
  | value v => simp only [leaf, knowing_naming, h]

mutual
theorem ofCondition_knowing (c : Condition)
    (h : d.Suffices schema (c.leaves.map (Site.leaf table))) :
    Clause.ofCondition (d.knowing schema) table c = Clause.ofCondition d table c := by
  cases c with
  | leaf column comparer operand =>
    have slot : (d.knowing schema).slot table column = d.slot table column :=
      h (.leaf table ⟨column, comparer, operand⟩) (by simp [Condition.leaves])
    simp only [Clause.ofCondition, leaf_knowing slot]
  | group o children =>
    simp only [Clause.ofCondition, ofConditions_knowing children h]

theorem ofConditions_knowing (cs : List Condition)
    (h : d.Suffices schema (Condition.sites table cs)) :
    Clause.ofConditions (d.knowing schema) table cs = Clause.ofConditions d table cs := by
  cases cs with
  | nil => rfl
  | cons c rest =>
    have split : Condition.sites table (c :: rest) =
        c.leaves.map (Site.leaf table) ++ Condition.sites table rest := by
      simp [Condition.sites, Condition.leavesOf]
    rw [split] at h
    simp only [Clause.ofConditions, ofCondition_knowing c h.left, ofConditions_knowing rest h.right]
end

theorem ofTerms_knowing {terms : List Condition}
    (h : d.Suffices schema (Condition.sites table terms)) :
    Clause.ofTerms (d.knowing schema) table terms = Clause.ofTerms d table terms := by
  rw [Clause.ofTerms, ofConditions_knowing terms h]
  rfl

theorem guarded_knowing (word : String) {terms : List Condition}
    (h : d.Suffices schema (Condition.sites table terms)) :
    (d.knowing schema).guarded word table terms = d.guarded word table terms := by
  simp only [guarded, ofTerms_knowing h]

theorem join_knowing {j : Join} (h : d.Suffices schema j.sites) :
    (d.knowing schema).join table j = d.join table j := by
  by_cases hr : j.required = .none
  · simp only [join, knowing_naming, hr, if_true]
  rw [Join.sites, if_neg hr] at h
  have on : (d.knowing schema).joinCondition table j = d.joinCondition table j := by
    unfold joinCondition
    cases hc : j.conditions with
    | none => rfl
    | some terms =>
      rw [hc, Option.getD_some] at h
      simp only [ofTerms_knowing h]
  simp only [join, knowing_naming, on]

theorem joins_knowing (table : String) {js : List Join}
    (h : d.Suffices schema (js.flatMap Join.sites)) :
    (d.knowing schema).joins table js = d.joins table js := by
  induction js with
  | nil => rfl
  | cons j rest ih =>
    rw [List.flatMap_cons] at h
    simp only [joins, join_knowing h.left, ih h.right]

theorem assigned_knowing {key : String}
    (h : (d.knowing schema).slot table key = d.slot table key) (v : Json) :
    (d.knowing schema).assigned table key v = d.assigned table key v := by
  simp only [assigned, h]

theorem assignments_knowing {values : Record}
    (h : d.Suffices schema (values.map fun e => .assigned table e.1 e.2)) :
    (d.knowing schema).assignments table values = d.assignments table values := by
  unfold assignments
  congr 1
  apply List.map_congr_left
  intro e he
  have slot : (d.knowing schema).slot table e.1 = d.slot table e.1 :=
    h (.assigned table e.1 e.2) (List.mem_map.mpr ⟨e, he, rfl⟩)
  simp only [assignment, knowing_naming, assigned_knowing slot]

theorem onConflict_knowing {upsert : Upsert} (h : d.Suffices schema (upsert.sites table)) :
    (d.knowing schema).onConflict table upsert = d.onConflict table upsert := by
  obtain ⟨columns, action⟩ := upsert
  cases action with
  | nothing => rfl
  | merge columns =>
    unfold onConflict
    cases columns <;> rfl
  | update v =>
    cases v with
    | object fields =>
      have same := assignments_knowing h
      unfold onConflict
      cases fields with
      | nil => rfl
      | cons e rest => simp only [knowing_naming, same]
    | _ => rfl

theorem inserted_knowing {spec : Spec}
    (h : d.Suffices schema (spec.values.map fun e => .inserted spec.table e.1 e.2)) :
    (d.knowing schema).inserted spec = d.inserted spec := by
  have same : (spec.values.map fun e => (d.knowing schema).assigned spec.table e.1 e.2) =
      spec.values.map fun e => d.assigned spec.table e.1 e.2 := by
    apply List.map_congr_left
    intro e he
    apply assigned_knowing
    exact h (.inserted spec.table e.1 e.2) (List.mem_map.mpr ⟨e, he, rfl⟩)
  simp only [inserted, knowing_naming, same]

/-- One case for each command. -/
theorem statement_knowing {spec : Spec} (h : d.Suffices schema spec.sites) :
    (d.knowing schema).statement spec = d.statement spec := by
  unfold statement
  unfold Spec.sites at h
  cases hc : spec.command with
  | select =>
    rw [hc] at h
    have having := guarded_knowing "HAVING" h.right
    have filter := guarded_knowing "WHERE" h.left.right
    have joins := joins_knowing spec.table h.left.left
    simp only [select, source, knowing_naming, knowing_selectList, joins, filter, having]
  | insert =>
    rw [hc] at h
    have inserted := inserted_knowing h.left
    cases hu : spec.upsert with
    | none => simp only [insert, hu, knowing_returning, inserted]
    | some upsert =>
      have upserted := h.right
      rw [hu] at upserted
      have conflict := onConflict_knowing (by simpa using upserted)
      simp only [insert, hu, knowing_returning, inserted, conflict]
  | update =>
    rw [hc] at h
    have values := assignments_knowing h.left
    have filter := guarded_knowing "WHERE" h.right
    simp only [update, knowing_naming, knowing_returning, values, filter]
  | delete =>
    rw [hc] at h
    have filter := guarded_knowing "WHERE" h
    simp only [delete, knowing_naming, filter]

/-- Of a column whose table is among the tables the same is known. -/
theorem slot_restricted {tables : List String} {column : String}
    (own : d.naming.storageName table ∈ tables)
    (other : ∀ q, Naming.qualifier? column = some q → d.naming.storageName q ∈ tables) :
    (d.knowing (d.schema.restricted tables)).slot table column = d.slot table column := by
  have known : ∀ s : List Char, (∀ q name, cutLast '.' s = some (q, name) →
      String.ofList (d.naming.storageChars q) ∈ tables) → (d.target table s).1 ∈ tables := by
    intro s hs
    unfold target
    split
    next q name hq => exact hs q name hq
    next => exact own
  unfold slot
  dsimp only
  split_ifs with raw path
  · rfl
  · rfl
  · have inside := known ((unmarked '!' column.toList).getD column.toList) fun q name hq => by
      have said : Naming.qualifier? column = some (String.ofList q) := by
        unfold Naming.qualifier?
        dsimp only
        rw [if_neg raw, if_neg path, hq]
        rfl
      have mem := other _ said
      rwa [Naming.storageName, String.toList_ofList] at mem
    simp only [knowing_schema, knowing_target, d.schema.column?_restricted inside]

end Dialect

/-- A place of a query is about one of its tables. -/
theorem Spec.table_of_sites (spec : Spec) : ∀ site ∈ spec.sites, site.table ∈ spec.tables := by
  have own : spec.table ∈ spec.tables := List.mem_cons_self
  have terms {table : String} (cs : List Condition) : ∀ site ∈ Condition.sites table cs,
      site.table = table := by
    intro site hs
    obtain ⟨c, -, rfl⟩ := List.mem_map.mp hs
    rfl
  have joined : ∀ j ∈ spec.joins, ∀ site ∈ j.sites, site.table ∈ spec.tables := by
    intro j hj site hs
    unfold Join.sites at hs
    split_ifs at hs
    · contradiction
    · rw [terms _ site hs]
      exact List.mem_cons_of_mem _ (List.mem_map.mpr ⟨j, hj, rfl⟩)
  have upserted : ∀ u : Upsert, ∀ site ∈ u.sites spec.table, site.table ∈ spec.tables := by
    intro u site hs
    unfold Upsert.sites at hs
    split at hs
    · obtain ⟨e, -, rfl⟩ := List.mem_map.mp hs
      exact own
    · contradiction
  intro site hs
  unfold Spec.sites at hs
  split at hs
  · rcases List.mem_append.mp hs with hs | hs
    · rcases List.mem_append.mp hs with hs | hs
      · obtain ⟨j, hj, hs⟩ := List.mem_flatMap.mp hs
        exact joined j hj site hs
      · exact terms _ site hs ▸ own
    · exact terms _ site hs ▸ own
  · rcases List.mem_append.mp hs with hs | hs
    · obtain ⟨e, -, rfl⟩ := List.mem_map.mp hs
      exact own
    · obtain ⟨u, -, hs⟩ := List.mem_flatMap.mp hs
      exact upserted u site hs
  · rcases List.mem_append.mp hs with hs | hs
    · obtain ⟨e, -, rfl⟩ := List.mem_map.mp hs
      exact own
    · exact terms _ site hs ▸ own
  · exact terms _ site hs ▸ own

/-- A query whose tables all have names is written with the column types of these tables as with
any others beside them, if no column that is compared or assigned to is said to belong to another
table. The tables are those that are looked up before it is written. -/
theorem compile_restricted {spec : Spec} {config : Config}
    (named : ∀ t ∈ spec.tables, isBlankText t = false ∧ unmarked ':' t.toList = none)
    (qualified : ∀ site ∈ spec.sites, ∀ q, Naming.qualifier? site.column = some q →
      config.naming.storageName q ∈ spec.tables.map config.naming.storageName)
    (schema : Schema) :
    spec.knownTables config.naming = spec.tables.map config.naming.storageName ∧
      compile spec config (schema.restricted (spec.tables.map config.naming.storageName)) =
        compile spec config schema := by
  constructor
  · unfold Spec.knownTables
    congr 1
    rw [List.filter_eq_self]
    intro t ht
    obtain ⟨filled, marked⟩ := named t ht
    simp [filled, marked]
  · have enough : (config.dialect schema).Suffices
        (schema.restricted (spec.tables.map config.naming.storageName)) spec.sites := by
      intro site hs
      apply Dialect.slot_restricted
      · exact List.mem_map.mpr ⟨site.table, spec.table_of_sites site hs, rfl⟩
      · exact qualified site hs
    rw [compile_eq, compile_eq, ← Dialect.statement_knowing enough]
    rfl

/-- A join whose condition names its own table, a filter without quotes on the other one, and a
path into a document. Nothing is taken from the third table, which is not part of the query. -/
theorem compile_restricted_join :
    let spec : Spec :=
      { table := "userAccount"
        joins := [{ table := "blog.post"
                    conditions := some [.leaf "blog.post.authorId" .eq (.value (.string "7"))] }]
        conditions := [.leaf "!userAccount.signedUp" .lt (.value (.string "2020-01-01")),
          .leaf "settings->theme" .eq (.value (.string "dark"))] }
    let config : Config := { naming := { app := .camel, db := .snake } }
    let schema : Schema :=
      [("user_account", [("signed_up", ⟨"date"⟩), ("settings", ⟨"jsonb"⟩)]),
        ("blog.post", [("author_id", ⟨"uuid"⟩)]), ("comment", [("author_id", ⟨"int4"⟩)])]
    (∀ t ∈ spec.tables, isBlankText t = false ∧ unmarked ':' t.toList = none) ∧
      (∀ site ∈ spec.sites, ∀ q, Naming.qualifier? site.column = some q →
        config.naming.storageName q ∈ spec.tables.map config.naming.storageName) ∧
      spec.knownTables config.naming = ["user_account", "blog.post"] ∧
      compile spec config (schema.restricted ["user_account", "blog.post"]) =
        compile spec config schema ∧
      (compile spec config schema).toOption = some
        ⟨"SELECT * FROM user_account INNER JOIN blog.post ON blog.post.author_id = $1::uuid " ++
          "WHERE (user_account.signed_up < $2::date AND \"settings\"->'theme' = $3::jsonb)",
          [.string "7", .string "2020-01-01", .string "\"dark\""]⟩ := by
  intro spec config schema
  have named : ∀ t ∈ spec.tables, isBlankText t = false ∧ unmarked ':' t.toList = none := by
    decide +kernel
  have qualified : ∀ site ∈ spec.sites, ∀ q, Naming.qualifier? site.column = some q →
      config.naming.storageName q ∈ spec.tables.map config.naming.storageName := by
    have places : spec.sites.all (fun site => (Naming.qualifier? site.column).all fun q =>
        (spec.tables.map config.naming.storageName).contains (config.naming.storageName q)) =
          true := by decide +kernel
    intro site hs q hq
    have inside := List.all_eq_true.mp places site hs
    rw [hq] at inside
    exact List.contains_iff_mem.mp inside
  have names : spec.tables.map config.naming.storageName = ["user_account", "blog.post"] := by
    decide +kernel
  obtain ⟨tables, same⟩ := compile_restricted named qualified schema
  rw [names] at tables same
  exact ⟨named, qualified, tables, same, by decide +kernel⟩

end DataAccess
