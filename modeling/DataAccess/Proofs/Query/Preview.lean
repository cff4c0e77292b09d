import DataAccess.Proofs.Activity
import DataAccess.Proofs.Query.Editing
import DataAccess.Proofs.Sql.Window

/-!
The statement that a query is shown with, and the one that it is run with. Without look-ups of
column types they are refused for the same reasons, and they are the same but for a window that is
shown although only one row is wanted.
-/
namespace DataAccess
open Session (Moves)
variable {σ : Type} [Link σ]

namespace Draft
variable {n : Nat} {spec : Spec} {w : World σ} {d : Draft}

theorem start_statement_untyped (untyped : (w.session n).config.introspect = false) :
    (statement n spec).start w = (compile spec (w.session n).config [], w) :=
  start_statement (by rw [untyped]; rfl)

/-- To show a statement changes nothing. -/
theorem start_toSql (untyped : (w.session n).config.introspect = false) :
    (toSql n d).start w =
      (d.checked >>= fun spec => compile spec (w.session n).config [], w) := by
  cases hd : d.checked with
  | error e =>
    rw [toSql, hd]
    rfl
  | ok spec =>
    rw [toSql, start_checked_ok hd, start_statement_untyped untyped]
    rfl

/-- A query that cannot be written as SQL is not run. -/
theorem start_execute_refused (untyped : (w.session n).config.introspect = false) {e : Error}
    (refused : (d.checked >>= fun spec =>
      compile spec.unpaged (w.session n).config []) = .error e) :
    (execute n d).start w = (.error e, w) := by
  cases hd : d.checked with
  | error f =>
    rw [hd] at refused
    cases refused
    rw [execute, hd]
    rfl
  | ok spec =>
    rw [hd] at refused
    replace refused : compile spec.unpaged (w.session n).config [] = .error e := refused
    have failed : (answer n spec.unpaged).start w = (.error e, w) := by
      refine Act.start_bind_error ?_
      rw [start_statement_untyped untyped, refused]
    rw [execute, start_checked_ok hd]
    exact Act.start_bind_error failed

/-- A query that can be written as SQL is asked first, unless its opening is refused. -/
theorem execute_asks (sound : (w.scope n).connection.Sound)
    (untyped : (w.session n).config.introspect = false) (hd : d.checked = .ok spec) {c : Compiled}
    (hc : compile spec.unpaged (w.session n).config [] = .ok c) :
    (∃ e, ((execute n d).start w).1 = .error e ∧
      (w.scope n).Refused (((execute n d).start w).2.scope n) e) ∨
      ∃ more, w.wire.Asks ((execute n d).start w).2.wire ((c.sql, c.params) :: more) := by
  have written : (statement n spec.unpaged).start w = (.ok c, w) := by
    rw [start_statement_untyped untyped, hc]
  have answered := Session.execWith_asks sound (compile_not_own hc) c.params
    { transaction := spec.unpaged.command.isMutation, first := spec.unpaged.first }
  rcases hr : (answer n spec.unpaged).start w with ⟨e | output, u⟩
  · have ran : (execute n d).start w = (.error e, u) := by
      rw [execute, start_checked_ok hd]
      exact Act.start_bind_error hr
    rw [answer, Act.start_bind_ok written] at hr
    rw [hr] at answered
    rw [ran]
    rcases answered with ⟨f, hf, refused⟩ | asks
    · exact .inl ⟨f, hf, refused⟩
    · exact .inr ⟨[], asks⟩
  · have ran : (execute n d).start w = Act.start (if spec.unpaged.window.isNone then
        pure output else do return .page (← page n spec.unpaged output.intoRows)) u := by
      rw [execute, start_checked_ok hd]
      exact Act.start_bind_ok hr
    have later : u.Later ((execute n d).start w).2 := by
      have moves : Moves (σ := σ) (CallersCommit True) (if spec.unpaged.window.isNone then
          pure output else do return .page (← page n spec.unpaged output.intoRows)) := by
        split
        · trivial
        · exact Activities.moves.act_bind (Activities.moves.page n _ _) fun _ => trivial
      rw [ran]
      exact moves.steps.later u
    rw [answer, Act.start_bind_ok written] at hr
    rw [hr] at answered
    rcases answered with ⟨f, hf, -⟩ | asks
    · contradiction
    · obtain ⟨more, others⟩ := later.asks
      exact .inr ⟨more, asks.trans others⟩

/-- Running a query that can be written as SQL does not fail for a mistake of the caller before a
statement was sent. -/
theorem execute_queries (sound : (w.scope n).connection.Sound)
    (untyped : (w.session n).config.introspect = false) (hd : d.checked = .ok spec) {c : Compiled}
    (hc : compile spec.unpaged (w.session n).config [] = .ok c) {e : Error}
    (he : ((execute n d).start w).1 = .error e) (mistake : e.isValidation = true) :
    ∃ calls, ((execute n d).start w).2.wire.calls = w.wire.calls ++ calls ∧
      ∃ x ∈ calls, x.isQuery = true := by
  rcases execute_asks sound untyped hd hc with ⟨f, hf, refused⟩ | ⟨more, calls, hcalls, hm⟩
  · obtain ⟨calls, hcalls, x, hx, -, queries⟩ := refused.refusal
    obtain rfl : e = f := Except.error.inj (he.symm.trans hf)
    refine ⟨calls, hcalls, x, hx, queries.resolve_right ?_⟩
    rw [mistake]
    decide
  · have asked : (c.sql, c.params) ∈ calls.filterMap Call.asked? := hm ▸ List.mem_cons_self
    obtain ⟨x, hx, user⟩ := List.mem_filterMap.mp asked
    refine ⟨calls, hcalls, x, hx, Call.isQuery_of_asked ?_⟩
    rw [user]
    exact Option.some_ne_none _

theorem spec_of_checked (hd : d.checked = .ok spec) : d.spec = spec := by
  unfold checked at hd
  split at hd
  · contradiction
  · exact Except.ok.inj hd

/-- A query is refused without its window if and only if it is with it. -/
theorem matches_checked (table : String) (edits : List Edit) (config : Config) :
    BothSucceed ((ofEdits table edits).checked >>= fun spec => compile spec config [])
      ((ofEdits table edits).checked >>= fun spec => compile spec.unpaged config []) := by
  cases hd : (ofEdits table edits).checked with
  | error e => exact .error (validates_checked table edits e hd)
  | ok spec => exact Spec.matches_compile_unpaged spec config []

/-- A query that cannot be shown is refused for a mistake of the caller, also when it is run. -/
theorem execute_refused (untyped : (w.session n).config.introspect = false) (table : String)
    (edits : List Edit) {e : Error}
    (he : ((toSql n (ofEdits table edits)).start w).1 = .error e) :
    e.isValidation = true ∧ (execute n (ofEdits table edits)).start w = (.error e, w) := by
  have related := matches_checked table edits (w.session n).config
  rw [start_toSql untyped] at he
  exact ⟨related.onlyFails e he, start_execute_refused untyped (related.error_eq he)⟩

/-- A query that is shown as SQL can be written as SQL without its window. -/
theorem toSql_written (untyped : (w.session n).config.introspect = false) {table : String}
    {edits : List Edit} {c : Compiled}
    (hc : ((toSql n (ofEdits table edits)).start w).1 = .ok c) :
    ∃ spec sent, (ofEdits table edits).checked = .ok spec ∧
      compile spec (w.session n).config [] = .ok c ∧
      compile spec.unpaged (w.session n).config [] = .ok sent := by
  rw [start_toSql untyped] at hc
  obtain ⟨sent, hs⟩ := (matches_checked table edits (w.session n).config).exists_ok hc
  obtain ⟨spec, hd, hc⟩ := bind_eq_ok.mp hc
  rw [hd] at hs
  exact ⟨spec, sent, hd, hc, hs⟩

/-- To show the statement of a query changes nothing. If the query is refused, then for a mistake of
the caller, for which it is refused as well when it is run, without anything being sent; and there
is no other way to fail like that without a statement. Otherwise the query is asked before anything
else, unless the session cannot open what it needs. It is asked with the statement that is shown,
but for a select with a window of which only one row is wanted: that is asked with another one. -/
theorem toSql_execute (sound : (w.scope n).connection.Sound)
    (untyped : (w.session n).config.introspect = false) (table : String) (edits : List Edit) :
    let d := ofEdits table edits
    let shown := (toSql n d).start w
    let ran := (execute n d).start w
    shown.2 = w ∧
      (∀ e, shown.1 = .error e → e.isValidation = true ∧ ran = (.error e, w)) ∧
      (∀ e calls, ran.1 = .error e → e.isValidation = true →
        ran.2.wire.calls = w.wire.calls ++ calls → (∀ x ∈ calls, x.isQuery = false) →
        shown.1 = .error e) ∧
      ∀ c, shown.1 = .ok c → ∃ calls, ran.2.wire.calls = w.wire.calls ++ calls ∧
        (((∃ e, ran.1 = .error e) ∧ calls.filterMap Call.asked? = [] ∧
            ∃ x ∈ calls, x.refusesOpening = true) ∨
          ∃ sent more, calls.filterMap Call.asked? = (sent.sql, sent.params) :: more ∧
            (¬ d.spec.dropsWindow → sent = c) ∧ (d.spec.dropsWindow → sent.sql ≠ c.sql)) := by
  intro d shown ran
  refine ⟨congrArg Prod.snd (start_toSql untyped),
    fun e he => execute_refused untyped table edits he, ?_, ?_⟩
  · intro e calls he mistake hcalls unsent
    cases hshown : shown.1 with
    | error f =>
      have same : ran.1 = .error f :=
        congrArg Prod.fst (execute_refused untyped table edits hshown).2
      obtain rfl : f = e := Except.error.inj (same.symm.trans he)
      rfl
    | ok c =>
      obtain ⟨spec, sent, hd, -, hs⟩ := toSql_written untyped hshown
      obtain ⟨others, hothers, x, hx, query⟩ := execute_queries sound untyped hd hs he mistake
      obtain rfl : calls = others := List.append_cancel_left (hcalls.symm.trans hothers)
      rw [unsent x hx] at query
      contradiction
  · intro c hc
    obtain ⟨spec, sent, hd, hc, hs⟩ := toSql_written untyped hc
    obtain rfl : d.spec = spec := spec_of_checked hd
    rcases execute_asks sound untyped hd hs with ⟨f, hf, refused⟩ | ⟨more, calls, hcalls, hm⟩
    · obtain ⟨calls, hcalls, x, hx, refuses, -⟩ := refused.refusal
      obtain ⟨others, hothers, hm⟩ := refused.asks
      obtain rfl : calls = others := List.append_cancel_left (hcalls.symm.trans hothers)
      exact ⟨calls, hcalls, .inl ⟨⟨f, hf⟩, hm, x, hx, refuses⟩⟩
    · refine ⟨calls, hcalls, .inr ⟨sent, more, hm, fun keeps => ?_, fun drops => ?_⟩⟩
      · rw [Spec.compile_unpaged keeps, hc] at hs
        exact (Except.ok.inj hs).symm
      · exact Spec.compile_unpaged_ne drops hc hs

/-- A query with a limit is run with the statement that is shown. -/
theorem toSql_execute_limited :
    let w : World Script :=
      { wire := { link := {} },
        sessions :=
          [(1, { number := 1, database := ⟨0, none⟩, config := { introspect := false } })] }
    let users := ofEdits "users" [.sorted ["-age"], .limitTo 3]
    let sql := "SELECT * FROM users ORDER BY \"age\" DESC LIMIT 3"
    ((toSql 1 users).start w).1.toOption = some ⟨sql, []⟩ ∧
      ∃ calls more, ((execute 1 users).start w).2.wire.calls = w.wire.calls ++ calls ∧
        calls.filterMap Call.asked? = (sql, []) :: more := by
  intro w users sql
  have shown : ((toSql 1 users).start w).1 = .ok ⟨sql, []⟩ := eq_ok_of_toOption (by decide +kernel)
  have accepted : ((execute 1 users).start w).1.isOk = true := by decide +kernel
  obtain ⟨-, -, -, asks⟩ := toSql_execute (n := 1) (w := w) ⟨by decide, by decide⟩ rfl "users"
    [.sorted ["-age"], .limitTo 3]
  obtain ⟨calls, hcalls, ⟨⟨e, he⟩, -⟩ | ⟨sent, more, hm, same, -⟩⟩ := asks _ shown
  · rw [he] at accepted
    contradiction
  · obtain rfl : sent = ⟨sql, []⟩ := same fun drops => absurd drops.2.1 (by decide)
    exact ⟨by rw [shown]; rfl, calls, more, hcalls, hm⟩

/-- The first row of a page is asked for without the window that is shown. -/
theorem toSql_execute_first_of_page :
    let w : World Script :=
      { wire := { link := {} },
        sessions :=
          [(1, { number := 1, database := ⟨0, none⟩, config := { introspect := false } })] }
    let users := ofEdits "users" [.paginated ⟨0, 10⟩, .first]
    ((toSql 1 users).start w).1.toOption =
        some ⟨"SELECT *, COUNT(*) OVER() AS total FROM users LIMIT 10", []⟩ ∧
      ((execute 1 users).start w).1.isOk = true ∧
      ((execute 1 users).start w).2.wire.asked = [("SELECT * FROM users LIMIT 1", [])] := by
  decide +kernel

end Draft
end DataAccess
