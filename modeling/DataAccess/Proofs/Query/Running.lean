import DataAccess.Proofs.Session.Serving
import DataAccess.Proofs.Sql.Numbering
import DataAccess.Proofs.Sql.Refusal
import DataAccess.Query.Answer

/-!
Queries on a link that accepts everything. The column types that are not known are looked up, the
statement of the query is sent, and its rows are what the query is answered with.
-/
namespace DataAccess

/-! Statements of queries are told from those that a session sends of its own accord by their
first word. -/

def openingWords : List String := ["SELECT ", "INSERT INTO ", "UPDATE ", "DELETE FROM "]

def ownStatements : List String :=
  ["BEGIN", "COMMIT", "ROLLBACK", "SET TRANSACTION ISOLATION LEVEL REPEATABLE READ",
    "SET TRANSACTION ISOLATION LEVEL SERIALIZABLE"]

theorem mem_ownStatements {sql : String} (h : isOwn sql = true) : sql ∈ ownStatements := by
  rcases Bool.or_eq_true_iff.mp h with control | isolation
  · have named : sql ∈ ["BEGIN", "COMMIT", "ROLLBACK"] := List.contains_iff_mem.mp control
    exact List.mem_append_left _ named
  · obtain ⟨i, -, hi⟩ := List.any_eq_true.mp isolation
    replace hi : i.statement = some sql := eq_of_beq hi
    cases i <;> cases hi <;> decide

theorem statement_opens {d : Dialect} {spec : Spec} {sql : Sql} (h : d.statement spec = .ok sql) :
    ∃ word ∈ openingWords, ∃ more rest, sql = .text (word ++ more) :: rest := by
  unfold Dialect.statement at h
  cases hc : spec.command with
  | select =>
    rw [hc] at h
    obtain ⟨source, -, h⟩ := bind_eq_ok.mp h
    obtain ⟨having, -, h⟩ := bind_eq_ok.mp h
    cases h
    exact ⟨"SELECT ", by decide, "", _, rfl⟩
  | insert =>
    rw [hc] at h
    obtain ⟨conflict, rfl, -⟩ := insert_ok h
    refine ⟨"INSERT INTO ", by decide, ?_⟩
    unfold Dialect.inserted
    dsimp only
    split_ifs
    · exact ⟨d.naming.storageName spec.table ++ " DEFAULT VALUES", _, by
        rw [← String.append_assoc]; rfl⟩
    · exact ⟨d.naming.storageName spec.table ++ " (", _, by rw [← String.append_assoc]; rfl⟩
  | update =>
    rw [hc] at h
    replace h : d.update spec = .ok sql := h
    unfold Dialect.update at h
    split_ifs at h
    obtain ⟨filter, -, h⟩ := bind_eq_ok.mp h
    cases h
    exact ⟨"UPDATE ", by decide, d.naming.storageName spec.table ++ " SET ", _, by
      rw [← String.append_assoc]; rfl⟩
  | delete =>
    rw [hc] at h
    obtain ⟨filter, -, h⟩ := bind_eq_ok.mp h
    cases h
    exact ⟨"DELETE FROM ", by decide, d.naming.storageName spec.table, _, rfl⟩

theorem compile_opens {spec : Spec} {config : Config} {schema : Schema} {c : Compiled}
    (h : compile spec config schema = .ok c) :
    ∃ word ∈ openingWords, word.toList <+: c.sql.toList := by
  obtain ⟨sql, hs, rfl⟩ := compile_eq_ok.mp h
  obtain ⟨word, hw, more, rest, rfl⟩ := statement_opens hs
  refine ⟨word, hw, more.toList ++ Sql.charsFrom 1 rest, ?_⟩
  simp [Sql.compiled, Sql.charsFrom]

theorem compile_not_own {spec : Spec} {config : Config} {schema : Schema} {c : Compiled}
    (h : compile spec config schema = .ok c) : isOwn c.sql = false := by
  have apart : ∀ own ∈ ownStatements, ∀ word ∈ openingWords, ¬ word.toList <+: own.toList := by
    decide
  obtain ⟨word, hw, opens⟩ := compile_opens h
  rw [Bool.eq_false_iff]
  intro own
  exact apart c.sql (mem_ownStatements own) word hw opens

namespace Spec

def Writable (spec : Spec) (config : Config) : Prop := ∃ c, compile spec config [] = .ok c

theorem Writable.compile_eq_ok {spec : Spec} {config : Config} (h : spec.Writable config)
    (schema : Schema) : ∃ c, compile spec config schema = .ok c := by
  obtain ⟨c, hc⟩ := h
  exact (matches_compile spec config config [] schema).exists_ok hc

/-- What is asked about the rows of a select can be written if the select can. -/
theorem Writable.aggregate {spec : Spec} {config : Config} (h : spec.Writable config)
    (selects : spec.command = .select) (key field : String) :
    (spec.aggregate key field).Writable config := by
  obtain ⟨c, hc⟩ := h
  exact (matches_compile_select selects rfl (spec.sameRows_aggregate key field) config config [] [])
    |>.exists_ok hc

/-- Whatever column types are known, the rows that the statement of the query gets are of this
kind. -/
def Yields (spec : Spec) (config : Config) (answers : String → List Json → List Record → Prop)
    (kind : List Record → Prop) : Prop :=
  ∀ schema c rows, compile spec config schema = .ok c → answers c.sql c.params rows → kind rows

end Spec

section
variable {σ : Type} [Link σ] {good : Option Address → σ → Prop}
  {answers : String → List Json → List Record → Prop} {n : Nat} {w : World σ}

namespace World

omit [Link σ] in
theorem putCatalogue_aside (w : World σ) (c : Nat) (tables : Schema) :
    w.Aside (w.putCatalogue c tables) :=
  ⟨rfl, fun _ => rfl, fun _ => rfl, fun _ => rfl, fun _ => rfl⟩

/-- From `w` to `v` session `n` was served, and users have asked for nothing but column types. -/
def LooksUp (good : Option Address → σ → Prop) (n : Nat) (w v : World σ) : Prop :=
  ∃ lookups, w.Served good n v lookups ∧ ∀ q ∈ lookups, q.1 = Schema.columnsSql

variable {u v : World σ}

omit [Link σ] in
theorem Ready.looksUp (h : w.Ready good n) : w.LooksUp good n w :=
  ⟨[], h.served, by simp⟩

omit [Link σ] in
theorem LooksUp.trans (h : w.LooksUp good n v) (k : v.LooksUp good n u) : w.LooksUp good n u := by
  obtain ⟨first, served, columns⟩ := h
  obtain ⟨second, more, others⟩ := k
  refine ⟨first ++ second, served.trans more, fun q hq => ?_⟩
  exact (List.mem_append.mp hq).elim (columns q) (others q)

omit [Link σ] in
theorem LooksUp.ready (h : w.LooksUp good n v) : v.Ready good n := h.choose_spec.1.ready

/-- From `w` to `v` session `n` has sent the statement of a query and has got these rows. Before
that, column types were looked up; nothing else was asked for. -/
def Runs (good : Option Address → σ → Prop)
    (answers : String → List Json → List Record → Prop) (n : Nat) (spec : Spec) (w v : World σ)
    (rows : List Record) : Prop :=
  ∃ schema c lookups, compile spec (w.session n).config schema = .ok c ∧
    answers c.sql c.params rows ∧ w.Served good n v (lookups ++ [(c.sql, c.params)]) ∧
    ∀ q ∈ lookups, q.1 = Schema.columnsSql

variable {spec : Spec} {rows : List Record}

omit [Link σ] in
theorem Runs.ready (h : w.Runs good answers n spec v rows) : v.Ready good n := by
  obtain ⟨schema, c, lookups, -, -, served, -⟩ := h
  exact served.ready

omit [Link σ] in
theorem Runs.config (h : w.Runs good answers n spec v rows) :
    (v.session n).config = (w.session n).config := by
  obtain ⟨schema, c, lookups, -, -, served, -⟩ := h
  exact served.later.config n

omit [Link σ] in
theorem Runs.kind {kind : List Record → Prop} (h : w.Runs good answers n spec v rows)
    (yields : spec.Yields (w.session n).config answers kind) : kind rows := by
  obtain ⟨schema, c, lookups, hc, answered, -, -⟩ := h
  exact yields schema c rows hc answered

end World

namespace Schema

theorem load_looksUp (h : Link.Serving good answers) (hw : w.Ready good n) (table : String) :
    ∃ columns v, (load n table).start w = (.ok columns, v) ∧ w.LooksUp good n v := by
  have users : isOwn columnsSql = false := by decide
  obtain ⟨rows, v, hv, -, served⟩ := Session.execWith_served h hw users (columnsParams table)
    { raw := true }
  refine ⟨.ofRows rows, v, ?_, [(columnsSql, columnsParams table)], served, by simp⟩
  rw [load, Act.start_bind_ok hv]
  rfl

theorem ensureTable_looksUp (h : Link.Serving good answers) (hw : w.Ready good n)
    (catalogue : Nat) (table : String) :
    ∃ v, (ensureTable n catalogue table).start w = (.ok (), v) ∧ w.LooksUp good n v := by
  have known : (Act.read fun w : World σ => w.catalogue catalogue).start w =
      (.ok (w.catalogue catalogue), w) := rfl
  rw [ensureTable, Act.start_bind_ok known]
  split
  · exact ⟨w, rfl, hw.looksUp⟩
  · obtain ⟨columns, v, hv, looked⟩ := load_looksUp h hw table
    rw [Act.start_bind_ok hv]
    refine ⟨_, rfl, looked.trans ?_⟩
    exact ⟨[], looked.ready.aside (v.putCatalogue_aside catalogue _), by simp⟩

/-- Each table is looked up where it is not known. -/
theorem ensureTables_looksUp (h : Link.Serving good answers) (catalogue : Nat)
    (tables : List String) {w : World σ} (hw : w.Ready good n) :
    ∃ v, (ensureTables n catalogue tables).start w = (.ok (), v) ∧ w.LooksUp good n v := by
  induction tables generalizing w with
  | nil => exact ⟨w, rfl, hw.looksUp⟩
  | cons table tables ih =>
    obtain ⟨v, hv, first⟩ := ensureTable_looksUp h hw catalogue table
    obtain ⟨u, hu, others⟩ := ih first.ready
    refine ⟨u, ?_, first.trans others⟩
    rw [ensureTables, Act.start_bind_ok hv, hu]

theorem ensure_looksUp (h : Link.Serving good answers) (hw : w.Ready good n)
    (tables : List String) :
    ∃ schema v, (ensure n tables).start w = (.ok schema, v) ∧ w.LooksUp good n v := by
  obtain ⟨v, hv, looked⟩ :=
    ensureTables_looksUp h (w.session n).database.catalogue tables hw
  rw [ensure, Act.start_bind_ok (Session.start_look n w), Act.start_holding, Act.start_bind_ok hv]
  exact ⟨_, v, rfl, looked⟩

end Schema

namespace Draft
variable {spec : Spec} {d : Draft}

omit [Link σ] in
theorem start_checked_ok {α : Type} {next : Spec → Act (World σ) α}
    (hd : d.checked = .ok spec) :
    (Act.ofExcept d.checked >>= next).start w = (next spec).start w := by
  rw [hd]
  rfl

theorem start_statement {schema : Schema} {v : World σ}
    (looked : Act.start (if (w.session n).config.introspect then
      Schema.ensure n (spec.knownTables (w.session n).config.naming) else pure []) w =
        (.ok schema, v)) :
    (statement n spec).start w = (compile spec (w.session n).config schema, v) := by
  rw [statement, Act.start_bind_ok (Session.start_look n w)]
  dsimp only
  split at looked
  next introspects =>
    rw [if_pos introspects, Act.start_bind_ok looked]
    rfl
  next untyped =>
    rw [if_neg untyped, Act.start_bind_ok looked]
    rfl

/-- A query that can be written as SQL is written with the column types that are known by then. -/
theorem statement_looksUp (h : Link.Serving good answers) (hw : w.Ready good n)
    (writable : spec.Writable (w.session n).config) :
    ∃ schema c v, compile spec (w.session n).config schema = .ok c ∧
      (statement n spec).start w = (.ok c, v) ∧ w.LooksUp good n v := by
  have types : ∃ schema v, Act.start (if (w.session n).config.introspect then
      Schema.ensure n (spec.knownTables (w.session n).config.naming) else pure []) w =
        (.ok schema, v) ∧ w.LooksUp good n v := by
    split
    · exact Schema.ensure_looksUp h hw _
    · exact ⟨[], w, rfl, hw.looksUp⟩
  obtain ⟨schema, v, hv, looked⟩ := types
  obtain ⟨c, hc⟩ := writable.compile_eq_ok schema
  exact ⟨schema, c, v, hc, by rw [start_statement hv, hc], looked⟩

/-- A query that can be written as SQL is answered with the rows of its statement. -/
theorem answer_runs (h : Link.Serving good answers) (hw : w.Ready good n)
    (writable : spec.Writable (w.session n).config) :
    ∃ rows v, w.Runs good answers n spec v rows ∧
      (answer n spec).start w =
        (.ok (.shape spec.first (rows.map (w.session n).converted)), v) := by
  obtain ⟨schema, c, u, hc, hu, lookups, looked, columns⟩ := statement_looksUp h hw writable
  obtain ⟨rows, v, hv, answered, served⟩ := Session.execWith_served h looked.ready
    (compile_not_own hc) c.params { transaction := spec.command.isMutation, first := spec.first }
  refine ⟨rows, v, ⟨schema, c, lookups, hc, answered, looked.trans served, columns⟩, ?_⟩
  rw [answer, Act.start_bind_ok hu, hv, looked.converted_eq]
  rfl

end Draft
end
end DataAccess
