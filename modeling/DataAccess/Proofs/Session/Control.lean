import DataAccess.Proofs.Session.Balance

/-!
The statements that open and end transactions, and which operation sends them. Inner transactions
send none; the outermost one ends with COMMIT only if nothing failed and changes are kept at all.
-/
namespace DataAccess

def isControl (sql : String) : Bool := ["BEGIN", "COMMIT", "ROLLBACK"].contains sql

def Call.control? : Call → Option String
  | .query _ _ sql _ _ => if isControl sql then some sql else none
  | _ => none

def Wire.controls {σ : Type} (w : Wire σ) : List String := w.calls.filterMap Call.control?

theorem Isolation.statement_not_control {i : Isolation} {sql : String}
    (h : i.statement = some sql) : isControl sql = false := by
  cases i <;> simp only [statement, Option.some.injEq, reduceCtorEq] at h <;> subst h <;> decide

/-- How the outermost transaction ends. -/
def endingStatement (failure : Option Error) (commit : Bool) : String :=
  if failure.isNone && commit then "COMMIT" else "ROLLBACK"

theorem isControl_endingStatement (failure : Option Error) (commit : Bool) :
    isControl (endingStatement failure commit) = true := by
  unfold endingStatement
  split <;> decide

namespace Scope
variable {σ : Type}

/-- The session has come from `s` to `t` with just these control statements. -/
def Sends (s t : Scope σ) (sent : List String) : Prop :=
  t.wire.controls = s.wire.controls ++ sent

theorem Sends.refl (s : Scope σ) : s.Sends s [] := (List.append_nil _).symm

theorem Sends.trans {s t u : Scope σ} {sent more : List String} (h : s.Sends t sent)
    (k : t.Sends u more) : s.Sends u (sent ++ more) := by
  unfold Sends at *
  rw [k, h, List.append_assoc]

theorem sends_of_calls {s t : Scope σ} {more : List Call}
    (h : t.wire.calls = s.wire.calls ++ more) :
    s.Sends t (more.filterMap Call.control?) := by
  rw [Sends, Wire.controls, h, List.filterMap_append]
  rfl

theorem sends_tries {s t : Scope σ} {delay : Duration} {k : Nat} {accepted : Bool}
    (h : t.wire.calls = s.wire.calls ++
      (Call.failedTries s.session.number delay k ++ [.connect s.session.number accepted])) :
    s.Sends t [] := by
  have hs := sends_of_calls h
  have quiet : ∀ x ∈ Call.failedTries s.session.number delay k ++
      [.connect s.session.number accepted], x.control? = none :=
    Call.forall_tries (P := fun x => x.control? = none) (fun _ => rfl) rfl k accepted
  rwa [List.filterMap_eq_nil_iff.mpr quiet] at hs

variable [Link σ]

theorem sends_statement (s : Scope σ) {sql : String} (hq : isControl sql = false)
    (params : List Json) : s.Sends (s.statement sql params).2 [] := by
  rcases statement_cases s sql params with ⟨-, hs⟩ | ⟨client, answer, t, -, hs, -, hw⟩ <;> rw [hs]
  · exact .refl s
  · simpa [Call.control?, hq] using sends_of_calls hw

/-- A control statement of the session, if it is connected. -/
theorem sends_command (s : Scope σ) {sql : String} (hq : isControl sql = true) :
    s.Sends (s.command sql).2 (if s.connection.client.isSome then [sql] else []) := by
  rcases command_cases s sql with ⟨hc, hs⟩ | ⟨client, outcome, t, hc, hs, -, hw⟩ <;> rw [hs, hc]
  · exact .refl s
  · simpa [Call.control?, hq] using sends_of_calls hw

theorem sends_retain (s : Scope σ) : s.Sends s.retain.2 [] := by
  rcases retain_cases s with ⟨-, hr⟩ | ⟨-, ⟨t, ht, hr⟩ | ⟨e, t, ht, hr⟩⟩ <;> rw [hr]
  · exact .refl s
  · obtain ⟨-, -, k, hc⟩ := dial_ok ht
    exact sends_tries hc
  · obtain ⟨-, k, hc⟩ := dial_error ht
    exact sends_tries hc

theorem sends_disconnect (s : Scope σ) : s.Sends s.disconnect [] := by
  cases hs : s.connection.client with
  | none =>
    rw [disconnect, hs]
    exact .refl s
  | some client => exact sends_of_calls (disconnect_of_client hs).2

theorem sends_release (s : Scope σ) : s.Sends s.release.2 [] := by
  rcases release_cases s with ⟨-, hr⟩ | ⟨-, ⟨-, hr⟩ | ⟨-, hr⟩⟩ <;> rw [hr]
  · exact .refl s
  · exact sends_disconnect s
  · exact .refl s

/-- Opening a transaction commits nothing. -/
theorem sends_openTransaction (s : Scope σ) :
    ∃ sent, s.Sends s.openTransaction.2 sent ∧ "COMMIT" ∉ sent := by
  refine openTransaction_keeps (P := fun t => ∃ sent, s.Sends t sent ∧ "COMMIT" ∉ sent) ?_
    ⟨[], .refl s, List.not_mem_nil⟩
  rintro t sql hsql ⟨sent, hs, hc⟩
  cases hq : isControl sql with
  | false => exact ⟨sent ++ [], hs.trans (sends_statement t hq []), by rwa [List.append_nil]⟩
  | true =>
    refine ⟨_, hs.trans (sends_command t hq), ?_⟩
    split_ifs <;> simp [hc, Ne.symm hsql]

/-- An inner transaction begins without a word, and none begins with a COMMIT. -/
theorem sends_begin (s : Scope σ) :
    ∃ sent, s.Sends s.begin.2 sent ∧ "COMMIT" ∉ sent ∧ (0 < s.connection.depth → sent = []) := by
  have hr := sends_retain s
  have hd := retain_depth s
  rcases begin_cases s with ⟨e, t, ht, hb⟩ | ⟨t, ht, ⟨-, hb⟩ | ⟨hz, ho⟩⟩
  · rw [ht] at hr
    exact ⟨[], hb ▸ hr, List.not_mem_nil, fun _ => rfl⟩
  · rw [ht] at hr
    exact ⟨[], hb ▸ hr, List.not_mem_nil, fun _ => rfl⟩
  simp only [ht] at hr hd
  obtain ⟨sent, hopen, hcommit⟩ := sends_openTransaction t
  rcases ho with ⟨u, hu, hb⟩ | ⟨e, u, hu, hb⟩ <;> rw [hb] <;> rw [hu] at hopen
  · exact ⟨sent, hr.trans hopen, hcommit, fun hp => by omega⟩
  · refine ⟨sent, ?_, hcommit, fun hp => by omega⟩
    simpa only [List.append_nil, List.nil_append] using
      (hr.trans hopen).trans (sends_release u)

/-- Only the outermost transaction ends with a statement. -/
theorem sends_finish {s : Scope σ} (h : s.Balanced) (failure : Option Error) :
    s.Sends (s.finish failure).2 (if s.connection.depth = 1 then
      [endingStatement failure s.session.config.commit] else []) := by
  rcases finish_cases s failure with ⟨hz, hf⟩ | ⟨h1, hf⟩ | ⟨depth, h2, hf⟩ <;> rw [hf]
  · rw [if_neg (by omega)]
    exact .refl s
  · -- the open transaction has its own share, so there is a connection to end it on
    have hs := sends_command (s.withDepth 0)
      (isControl_endingStatement failure s.session.config.commit)
    rw [connection_withDepth, if_pos (h.connected (by omega))] at hs
    rw [if_pos h1]
    exact Sends.trans (t := ((s.withDepth 0).endOutermost failure).2) hs (sends_release _)
  · rw [if_neg (by omega)]
    exact sends_release _

theorem sends_close {s : Scope σ} (h : s.Balanced) :
    s.Sends s.close.2 (if 0 < s.connection.depth then ["ROLLBACK"] else []) := by
  obtain ⟨t, ht, hc⟩ := close_cases s
  have hst : s.Sends t (if 0 < s.connection.depth then ["ROLLBACK"] else []) := by
    rcases ht with ⟨hz, ht⟩ | ⟨hp, ht⟩ <;> rw [ht]
    · rw [if_neg (by omega)]
      exact .refl s
    · have hs := sends_command (s.withDepth 0) (rfl : isControl "ROLLBACK" = true)
      rw [connection_withDepth, if_pos (h.connected hp)] at hs
      rw [if_pos hp]
      exact hs
  rw [hc]
  by_cases hp : 0 < t.connection.count
  · rw [if_pos hp]
    simpa only [List.append_nil] using hst.trans (sends_disconnect t)
  · rwa [if_neg hp]

/-- What an operation commits, and what it sends for inner transactions. -/
theorem sends_on {s : Scope σ} (h : s.Balanced) {o : Operation}
    (ho : o.Admitted fun sql => isControl sql = false) :
    ∃ sent, s.Sends (o.on s) sent ∧
      ("COMMIT" ∈ sent ↔
        o = .finish none ∧ s.connection.depth = 1 ∧ s.session.config.commit = true) ∧
      (∀ failure, o = .finish failure → sent = if s.connection.depth = 1 then
        [endingStatement failure s.session.config.commit] else []) ∧
      (o = .begin → 0 < s.connection.depth → sent = []) := by
  cases o with
  | retain => exact ⟨[], sends_retain s, by simp⟩
  | release => exact ⟨[], sends_release s, by simp⟩
  | begin =>
    obtain ⟨sent, hs, hc, hn⟩ := sends_begin s
    exact ⟨sent, hs, by simpa using hc, by simp, fun _ => hn⟩
  | finish failure =>
    refine ⟨_, sends_finish h failure, ?_, ?_, by simp⟩
    · cases failure <;> cases s.session.config.commit <;> split_ifs with h1 <;>
        simp [endingStatement, h1]
    · rintro _ ⟨⟩
      rfl
  | statement sql params => exact ⟨[], sends_statement s ho params, by simp⟩
  | close =>
    refine ⟨_, sends_close h, ?_, by simp⟩
    split_ifs <;> simp

end Scope
end DataAccess
