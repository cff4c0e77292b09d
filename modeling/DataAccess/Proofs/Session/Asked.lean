import DataAccess.Proofs.Session.Control
import DataAccess.Proofs.Session.Structured

/-!
What users have a session ask the link. The statements that open, set up and end transactions are
the session's own; every other one comes from a user, and is sent once the session has opened what
it needs for it.
-/
namespace DataAccess

def isIsolation (sql : String) : Bool :=
  [Isolation.repeatableRead, .serializable].any fun i => i.statement == some sql

def isOwn (sql : String) : Bool := isControl sql || isIsolation sql

theorem Isolation.statement_own {i : Isolation} {sql : String} (h : i.statement = some sql) :
    isIsolation sql = true ∧ isOwn sql = true := by
  cases i <;> simp only [statement, Option.some.injEq, reduceCtorEq] at h <;> subst h <;> decide

namespace Call

/-- A statement that a user asks for, with its parameters. -/
def asked? : Call → Option (String × List Json)
  | .query _ _ sql params _ => if isOwn sql then none else some (sql, params)
  | _ => none

def isQuery : Call → Bool
  | .query .. => true
  | _ => false

theorem isQuery_of_asked {x : Call} (h : x.asked? ≠ none) : x.isQuery = true := by
  cases x with
  | query => rfl
  | connect | release | finish | pause => contradiction

def refusesOpening : Call → Bool
  | .connect _ accepted => !accepted
  | .query _ _ sql _ accepted => (sql == "BEGIN" || isIsolation sql) && !accepted
  | _ => false

end Call

namespace Wire
variable {σ : Type}

def asked (w : Wire σ) : List (String × List Json) := w.calls.filterMap Call.asked?

/-- From `w` to `v` users have asked for just this. -/
def Asks (w v : Wire σ) (more : List (String × List Json)) : Prop :=
  ∃ calls, v.calls = w.calls ++ calls ∧ calls.filterMap Call.asked? = more

variable {u v w : Wire σ}

theorem Asks.refl (w : Wire σ) : w.Asks w [] := ⟨[], (List.append_nil _).symm, rfl⟩

theorem Asks.trans {first second : List (String × List Json)} (h : w.Asks v first)
    (k : v.Asks u second) : w.Asks u (first ++ second) := by
  obtain ⟨calls, hc, rfl⟩ := h
  obtain ⟨later, hl, rfl⟩ := k
  exact ⟨calls ++ later, by rw [hl, hc, List.append_assoc], List.filterMap_append⟩

/-- Whoever asks for nothing may come before and after. -/
theorem Asks.quiet_trans {more : List (String × List Json)} (h : w.Asks v [])
    (k : v.Asks u more) : w.Asks u more :=
  h.trans k

theorem Asks.trans_quiet {more : List (String × List Json)} (h : w.Asks v more)
    (k : v.Asks u []) : w.Asks u more := by
  simpa only [List.append_nil] using h.trans k

theorem asks_of_quiet {calls : List Call} (h : v.calls = w.calls ++ calls)
    (quiet : ∀ x ∈ calls, x.asked? = none) : w.Asks v [] :=
  ⟨calls, h, List.filterMap_eq_nil_iff.mpr quiet⟩

theorem asks_of_calls_eq (h : v.calls = w.calls) : w.Asks v [] :=
  ⟨[], h.trans (List.append_nil _).symm, rfl⟩

end Wire

namespace Scope
variable {σ : Type}

theorem asks_tries {s t : Scope σ} {delay : Duration} {k : Nat} {accepted : Bool}
    (h : t.wire.calls = s.wire.calls ++
      (Call.failedTries s.session.number delay k ++ [.connect s.session.number accepted])) :
    s.wire.Asks t.wire [] :=
  Wire.asks_of_quiet h
    (Call.forall_tries (P := fun x => x.asked? = none) (fun _ => rfl) rfl k accepted)

variable [Link σ]

theorem asks_retain (s : Scope σ) : s.wire.Asks s.retain.2.wire [] := by
  rcases retain_cases s with ⟨-, hr⟩ | ⟨-, ⟨t, ht, hr⟩ | ⟨e, t, ht, hr⟩⟩ <;> rw [hr]
  · exact .refl _
  · obtain ⟨-, -, k, hc⟩ := dial_ok ht
    exact asks_tries hc
  · obtain ⟨-, k, hc⟩ := dial_error ht
    exact asks_tries hc

theorem asks_disconnect (s : Scope σ) : s.wire.Asks s.disconnect.wire [] := by
  cases hs : s.connection.client with
  | none =>
    rw [disconnect, hs]
    exact .refl _
  | some client =>
    exact Wire.asks_of_quiet (disconnect_of_client hs).2 (by simp [Call.asked?])

theorem asks_release (s : Scope σ) : s.wire.Asks s.release.2.wire [] := by
  rcases release_cases s with ⟨-, hr⟩ | ⟨-, ⟨-, hr⟩ | ⟨-, hr⟩⟩ <;> rw [hr]
  · exact .refl _
  · exact asks_disconnect s
  · exact .refl _

theorem asks_command (s : Scope σ) {sql : String} (hq : isOwn sql = true) :
    s.wire.Asks (s.command sql).2.wire [] := by
  rcases command_cases s sql with ⟨-, hs⟩ | ⟨client, outcome, t, -, hs, -, hw⟩ <;> rw [hs]
  · exact .refl _
  · exact Wire.asks_of_quiet hw (by simp [Call.asked?, hq])

/-- A statement of a user is asked for, if the session is connected. -/
theorem asks_statement {s : Scope σ} (connected : s.connection.client.isSome) {sql : String}
    (hq : isOwn sql = false) (params : List Json) :
    s.wire.Asks (s.statement sql params).2.wire [(sql, params)] := by
  rcases statement_cases s sql params with ⟨hc, -⟩ | ⟨client, answer, t, -, hs, -, hw⟩
  · rw [hc] at connected
    contradiction
  · rw [hs]
    exact ⟨_, hw, by simp [Call.asked?, hq]⟩

theorem asks_openTransaction (s : Scope σ) : s.wire.Asks s.openTransaction.2.wire [] := by
  have own : isOwn "BEGIN" = true := by decide
  have hb := asks_command s own
  rcases openTransaction_cases s with ⟨e, t, ht, ho⟩ | ⟨t, ht, ⟨-, ho⟩ | ⟨isolation, hq, hi⟩⟩ <;>
    rw [ht] at hb
  · rwa [ho]
  · rwa [ho]
  have hs := asks_command t (Isolation.statement_own hq).2
  rcases hi with ⟨u, hu, ho⟩ | ⟨e, u, hu, ho⟩ <;> rw [ho] <;> rw [hu] at hs
  · exact hb.trans hs
  · exact (hb.trans hs).trans (asks_command u (by decide))

theorem asks_begin (s : Scope σ) : s.wire.Asks s.begin.2.wire [] := by
  have hr := asks_retain s
  rcases begin_cases s with ⟨e, t, ht, hb⟩ | ⟨t, ht, ⟨-, hb⟩ | ⟨-, ho⟩⟩ <;> rw [ht] at hr
  · rwa [hb]
  · rwa [hb]
  have hopen := asks_openTransaction t
  rcases ho with ⟨u, hu, hb⟩ | ⟨e, u, hu, hb⟩ <;> rw [hb] <;> rw [hu] at hopen
  · exact hr.trans hopen
  · exact (hr.trans hopen).trans (asks_release u)

theorem asks_endOutermost (s : Scope σ) (failure : Option Error) :
    s.wire.Asks (s.endOutermost failure).2.wire [] := by
  have own : isOwn (endingStatement failure s.session.config.commit) = true := by
    rw [isOwn, isControl_endingStatement, Bool.true_or]
  exact asks_command s own

theorem asks_finish (s : Scope σ) (failure : Option Error) :
    s.wire.Asks (s.finish failure).2.wire [] := by
  rcases finish_cases s failure with ⟨-, hf⟩ | ⟨-, hf⟩ | ⟨depth, -, hf⟩ <;> rw [hf]
  · exact .refl _
  · exact (asks_endOutermost (s.withDepth 0) failure).trans (asks_release _)
  · exact asks_release (s.withDepth (depth + 1))

structure Refused (s t : Scope σ) (e : Error) : Prop where
  asks : s.wire.Asks t.wire []
  refusal : ∃ calls, t.wire.calls = s.wire.calls ++ calls ∧ ∃ x ∈ calls,
    x.refusesOpening = true ∧ (x.isQuery = true ∨ e.isValidation = false)

theorem refused_retain {s t : Scope σ} {e : Error} (h : s.retain = (.error e, t)) :
    s.Refused t e := by
  refine ⟨by simpa only [h] using asks_retain s, ?_⟩
  rcases retain_cases s with ⟨-, hr⟩ | ⟨-, ⟨u, -, hr⟩ | ⟨f, u, hu, hr⟩⟩ <;>
    rw [h] at hr <;> cases hr
  rcases dialUpTo_cases s (s.session.config.retry.attempts - 1) with
    ⟨k, -, v, hv, -, -⟩ | ⟨source, v, hv, -, hc⟩ <;> rw [dial, hv] at hu <;> cases hu
  exact ⟨_, hc, .connect s.session.number false, by simp, rfl, .inr rfl⟩

/-- A refused statement that opens a transaction on an open connection. -/
theorem refusal_of_command {s t : Scope σ} {e : Error} {sql : String}
    (connected : s.connection.client.isSome) (h : s.command sql = (.error e, t))
    (hq : sql = "BEGIN" ∨ isIsolation sql = true) :
    ∃ x, t.wire.calls = s.wire.calls ++ [x] ∧ x.refusesOpening = true ∧ x.isQuery = true := by
  rcases command_cases s sql with ⟨hc, -⟩ | ⟨client, outcome, u, -, hs, -, hw⟩
  · rw [hc] at connected
    contradiction
  · rw [h] at hs
    cases hs
    refine ⟨_, hw, ?_, rfl⟩
    rcases hq with rfl | hq
    · rfl
    · simp [Call.refusesOpening, hq, Except.isOk, Except.toBool]

theorem refused_openTransaction {s t : Scope σ} {e : Error}
    (connected : s.connection.client.isSome) (h : s.openTransaction = (.error e, t)) :
    s.Refused t e := by
  refine ⟨by simpa only [h] using asks_openTransaction s, ?_⟩
  rcases openTransaction_cases s with
    ⟨f, u, hu, ho⟩ | ⟨u, hu, ⟨-, ho⟩ | ⟨isolation, hq, ⟨v, -, ho⟩ | ⟨f, v, hv, ho⟩⟩⟩ <;>
    rw [h] at ho <;> cases ho
  · obtain ⟨x, hx, refuses, query⟩ := refusal_of_command connected hu (.inl rfl)
    exact ⟨[x], hx, x, List.mem_singleton.mpr rfl, refuses, .inl query⟩
  · have still : u.connection.client.isSome := by
      have same := command_connection s "BEGIN"
      rw [hu] at same
      rwa [same]
    obtain ⟨before, hb, -⟩ : s.wire.Asks u.wire [] := by
      have own : isOwn "BEGIN" = true := by decide
      simpa only [hu] using asks_command s own
    obtain ⟨x, hx, refuses, query⟩ :=
      refusal_of_command still hv (.inr (Isolation.statement_own hq).1)
    have own : isOwn "ROLLBACK" = true := by decide
    obtain ⟨after, ha, -⟩ := asks_command v own
    exact ⟨before ++ x :: after, by rw [ha, hx, hb]; simp, x, by simp, refuses, .inl query⟩

theorem refused_begin {s t : Scope σ} {e : Error} (hs : s.connection.Sound)
    (h : s.begin = (.error e, t)) : s.Refused t e := by
  rcases begin_cases s with ⟨f, u, hu, hb⟩ | ⟨u, hu, ⟨-, hb⟩ | ⟨-, ⟨v, -, hb⟩ | ⟨f, v, hv, hb⟩⟩⟩ <;>
    rw [h] at hb <;> cases hb
  · exact refused_retain hu
  refine ⟨by simpa only [h] using asks_begin s, ?_⟩
  have entered := enters_retain hu
  have connected : u.connection.client.isSome := by
    refine (entered.sound hs (Nat.le_succ_of_le hs.depth_le)).held.mpr ?_
    rw [entered.connection]
    exact Nat.succ_pos _
  obtain ⟨before, hb, -⟩ : s.wire.Asks u.wire [] := by simpa only [hu] using asks_retain s
  obtain ⟨calls, hc, x, hx, refuses⟩ := (refused_openTransaction connected hv).refusal
  obtain ⟨after, ha, -⟩ := asks_release v
  refine ⟨before ++ calls ++ after, by rw [ha, hc, hb]; simp, x, by simp [hx], refuses⟩

end Scope
end DataAccess
