import DataAccess.Session.Turn
import Mathlib.Tactic.SplitIfs

/-!
What each operation on a connection can do, case by case. Later proofs take the cases from here
and do not open the operations again.
-/
namespace DataAccess

def Call.failedTries (session : Nat) (delay : Duration) (n : Nat) : List Call :=
  (List.replicate n [Call.connect session false, .pause delay]).flatten

theorem Call.failedTries_succ (session : Nat) (delay : Duration) (n : Nat) :
    failedTries session delay (n + 1) =
      .connect session false :: .pause delay :: failedTries session delay n := rfl

theorem Call.mem_failedTries {session : Nat} {delay : Duration} {n : Nat} {x : Call}
    (h : x ∈ failedTries session delay n) : x = .connect session false ∨ x = .pause delay := by
  obtain ⟨l, hl, hx⟩ := List.mem_flatten.mp h
  rw [List.eq_of_mem_replicate hl] at hx
  simpa using hx

/-- What holds of a try and of a pause holds of all calls of some tries to connect. -/
theorem Call.forall_tries {P : Call → Prop} {session : Nat} {delay : Duration}
    (connect : ∀ accepted, P (.connect session accepted)) (pause : P (.pause delay)) (n : Nat)
    (accepted : Bool) :
    ∀ x ∈ failedTries session delay n ++ [.connect session accepted], P x := by
  intro x hx
  rcases List.mem_append.mp hx with hx | hx
  · rcases mem_failedTries hx with rfl | rfl
    · exact connect false
    · exact pause
  · rw [List.mem_singleton.mp hx]
    exact connect accepted

theorem Call.countP_failedTries {f : Call → Bool} {session : Nat} {delay : Duration}
    (connect : f (.connect session false) = false) (pause : f (.pause delay) = false) (n : Nat) :
    (failedTries session delay n).countP f = 0 := by
  rw [List.countP_eq_zero]
  intro x hx
  rcases mem_failedTries hx with rfl | rfl
  · simp [connect]
  · simp [pause]

theorem Isolation.statement_ne_commit {i : Isolation} {sql : String}
    (h : i.statement = some sql) : sql ≠ "COMMIT" := by
  cases i <;> simp only [statement, Option.some.injEq, reduceCtorEq] at h <;> subst h <;> decide

namespace Scope
variable {σ : Type}

@[simp] theorem connection_withConnection (s : Scope σ) (c : Connection) :
    (s.withConnection c).connection = c := rfl

@[simp] theorem connection_withDepth (s : Scope σ) (depth : Nat) :
    (s.withDepth depth).connection = { s.connection with depth } := rfl

@[simp] theorem connection_publish (s : Scope σ) (e : Event) :
    (s.publish e).connection = s.connection := rfl

@[simp] theorem wire_withConnection (s : Scope σ) (c : Connection) :
    (s.withConnection c).wire = s.wire := rfl

@[simp] theorem wire_withDepth (s : Scope σ) (depth : Nat) :
    (s.withDepth depth).wire = s.wire := rfl

@[simp] theorem wire_publish (s : Scope σ) (e : Event) : (s.publish e).wire = s.wire := rfl

@[simp] theorem number_withConnection (s : Scope σ) (c : Connection) :
    (s.withConnection c).session.number = s.session.number := rfl

@[simp] theorem number_publish (s : Scope σ) (e : Event) :
    (s.publish e).session.number = s.session.number := rfl

variable [Link σ]

/-- A try to connect is recorded with its outcome; a connection gets the next number. -/
theorem tryConnect_cases (s : Scope σ) :
    (∃ t, s.tryConnect = (.ok (s.wire.opened + 1), t) ∧ t.session = s.session ∧
      t.wire.calls = s.wire.calls ++ [.connect s.session.number true]) ∨
    ∃ e t, s.tryConnect = (.error e, t) ∧ t.session = s.session ∧
      t.wire.calls = s.wire.calls ++ [.connect s.session.number false] := by
  unfold tryConnect
  obtain ⟨answer, link⟩ := Link.connect s.wire.link s.session.database.address
  cases answer with
  | ok a =>
    refine .inl ⟨s.answered link (.connect s.session.number true), ?_, rfl, rfl⟩
    have ho : (s.answered link (.connect s.session.number true)).wire.opened =
        s.wire.opened + 1 := by
      simp [answered, Wire.opened, Call.opens]
    exact Prod.ext (congrArg Except.ok ho) rfl
  | error e => exact .inr ⟨e, _, rfl, rfl, rfl⟩

/-- Either a try succeeds after some that fail, or all of them fail. -/
theorem dialUpTo_cases (s : Scope σ) (more : Nat) :
    (∃ k ≤ more, ∃ t, s.dialUpTo more = (.ok (s.wire.opened + 1), t) ∧ t.session = s.session ∧
      t.wire.calls = s.wire.calls ++
        (Call.failedTries s.session.number s.session.config.retry.delay k ++
          [.connect s.session.number true])) ∨
    ∃ source t, s.dialUpTo more =
        (.error (.connect s.session.config.retry.attempts source), t) ∧ t.session = s.session ∧
      t.wire.calls = s.wire.calls ++
        (Call.failedTries s.session.number s.session.config.retry.delay more ++
          [.connect s.session.number false]) := by
  induction more generalizing s with
  | zero =>
    rcases tryConnect_cases s with ⟨t, ht, hs, hc⟩ | ⟨e, t, ht, hs, hc⟩
    · exact .inl ⟨0, Nat.le_refl 0, t, by rw [dialUpTo, ht], hs, hc⟩
    · exact .inr ⟨.error e, t, by rw [dialUpTo, ht, ← hs], hs, hc⟩
  | succ more ih =>
    rcases tryConnect_cases s with ⟨t, ht, hs, hc⟩ | ⟨e, t, ht, hs, hc⟩
    · exact .inl ⟨0, Nat.zero_le _, t, by rw [dialUpTo, ht], hs, hc⟩
    have hp : t.pause.wire.calls = s.wire.calls ++
        [.connect s.session.number false, .pause s.session.config.retry.delay] := by
      simp [pause, Wire.pause, hc, hs]
    have ho : t.pause.wire.opened = s.wire.opened := by
      simp [Wire.opened, hp, Call.opens]
    have hd : s.dialUpTo (more + 1) = t.pause.dialUpTo more := by rw [dialUpTo, ht]
    have hps : t.pause.session = s.session := hs
    rcases ih t.pause with ⟨k, hk, u, hu, hus, huc⟩ | ⟨source, u, hu, hus, huc⟩
    · refine .inl ⟨k + 1, Nat.succ_le_succ hk, u, by rw [hd, hu, ho], hus.trans hps, ?_⟩
      simp [huc, hps, hp, Call.failedTries_succ]
    · refine .inr ⟨source, u, by rw [hd, hu, hps], hus.trans hps, ?_⟩
      simp [huc, hps, hp, Call.failedTries_succ]

theorem dial_ok {s t : Scope σ} {client : Nat} (h : s.dial = (.ok client, t)) :
    client = s.wire.opened + 1 ∧ t.session = s.session ∧ ∃ k, t.wire.calls = s.wire.calls ++
      (Call.failedTries s.session.number s.session.config.retry.delay k ++
        [.connect s.session.number true]) := by
  rcases dialUpTo_cases s (s.session.config.retry.attempts - 1) with
    ⟨k, -, u, hu, hs, hc⟩ | ⟨source, u, hu, -, -⟩ <;> rw [dial, hu] at h <;> cases h
  exact ⟨rfl, hs, k, hc⟩

theorem dial_error {s t : Scope σ} {e : Error} (h : s.dial = (.error e, t)) :
    t.session = s.session ∧ ∃ k, t.wire.calls = s.wire.calls ++
      (Call.failedTries s.session.number s.session.config.retry.delay k ++
        [.connect s.session.number false]) := by
  rcases dialUpTo_cases s (s.session.config.retry.attempts - 1) with
    ⟨k, -, u, hu, -, -⟩ | ⟨source, u, hu, hs, hc⟩ <;> rw [dial, hu] at h <;> cases h
  exact ⟨hs, _, hc⟩

/-- Giving a connection back leaves nobody using it. -/
theorem disconnect_connection (s : Scope σ) :
    s.disconnect.connection = { s.connection with count := 0, client := none } := by
  unfold disconnect
  split <;> rfl

theorem disconnect_of_client {s : Scope σ} {client : Nat}
    (h : s.connection.client = some client) :
    s.disconnect.connection = { s.connection with count := 0, client := none } ∧
      s.disconnect.wire.calls = s.wire.calls ++ [.release s.session.number client] := by
  rw [disconnect, h]
  exact ⟨rfl, rfl⟩

theorem retain_cases (s : Scope σ) :
    (0 < s.connection.count ∧ s.retain =
      (.ok (), s.withConnection { s.connection with count := s.connection.count + 1 })) ∨
    s.connection.count = 0 ∧
      ((∃ t, s.dial = (.ok (s.wire.opened + 1), t) ∧ s.retain =
        (.ok (), (t.withConnection { s.connection with
          count := 1, client := some (s.wire.opened + 1) }).publish .connected)) ∨
      ∃ e t, s.dial = (.error e, t) ∧ s.retain = (.error e, t)) := by
  by_cases hp : 0 < s.connection.count
  · exact .inl ⟨hp, by rw [retain, if_pos hp]⟩
  refine .inr ⟨Nat.eq_zero_of_not_pos hp, ?_⟩
  rcases hd : s.dial with ⟨_ | client, t⟩
  · exact .inr ⟨_, t, rfl, by rw [retain, if_neg hp, hd]⟩
  · obtain ⟨rfl, -, -⟩ := dial_ok hd
    exact .inl ⟨t, rfl, by rw [retain, if_neg hp, hd]⟩

/-- A retained connection has a user more than before. -/
theorem retain_ok {s t : Scope σ} (h : s.retain = (.ok (), t)) :
    t.connection.count = s.connection.count + 1 ∧ t.connection.depth = s.connection.depth := by
  rcases retain_cases s with ⟨-, hr⟩ | ⟨hz, ⟨u, -, hr⟩ | ⟨e, u, -, hr⟩⟩ <;>
    rw [h] at hr <;> cases hr
  · exact ⟨rfl, rfl⟩
  · exact ⟨by rw [hz]; rfl, rfl⟩

theorem retain_depth (s : Scope σ) : s.retain.2.connection.depth = s.connection.depth := by
  rcases retain_cases s with ⟨-, hr⟩ | ⟨-, ⟨t, -, hr⟩ | ⟨e, t, ht, hr⟩⟩ <;> rw [hr]
  · rfl
  · rfl
  · rw [connection, (dial_error ht).1]
    rfl

theorem release_cases (s : Scope σ) :
    (s.connection.count ≤ s.connection.depth ∧
      s.release = (.error (.notRetained s.session.number), s)) ∨
    s.connection.depth < s.connection.count ∧
      ((s.connection.count = 1 ∧ s.release = (.ok (), s.disconnect)) ∨
      (1 < s.connection.count ∧ s.release =
        (.ok (), s.withConnection { s.connection with count := s.connection.count - 1 }))) := by
  by_cases hd : s.connection.count ≤ s.connection.depth
  · exact .inl ⟨hd, by rw [release, if_pos hd]⟩
  refine .inr ⟨Nat.lt_of_not_le hd, ?_⟩
  by_cases h1 : s.connection.count = 1
  · exact .inl ⟨h1, by rw [release, if_neg hd, if_pos h1]⟩
  · exact .inr ⟨by omega, by rw [release, if_neg hd, if_neg h1]⟩

theorem statement_cases (s : Scope σ) (sql : String) (params : List Json) :
    (s.connection.client = none ∧
      s.statement sql params = (.error (.notConnected s.session.number), s)) ∨
    ∃ client answer t, s.connection.client = some client ∧ s.statement sql params = (answer, t) ∧
      t.session = s.session.record ⟨sql, params, answer.isOk⟩ ∧
      t.wire.calls = s.wire.calls ++ [.query s.session.number client sql params answer.isOk] := by
  cases hc : s.connection.client with
  | none => exact .inl ⟨rfl, by rw [statement, hc]⟩
  | some client =>
    rcases hq : Link.query s.wire.link client sql params with ⟨answer, link⟩
    refine .inr ⟨client, answer,
      { s.answered link (.query s.session.number client sql params answer.isOk) with
        session := s.session.record ⟨sql, params, answer.isOk⟩ }, rfl, ?_, rfl, rfl⟩
    rw [statement, hc]
    simp only [hq]
    rfl

theorem command_cases (s : Scope σ) (sql : String) :
    (s.connection.client = none ∧ s.command sql = (.error (.notConnected s.session.number), s)) ∨
    ∃ client outcome t, s.connection.client = some client ∧ s.command sql = (outcome, t) ∧
      t.session = s.session.record ⟨sql, [], outcome.isOk⟩ ∧
      t.wire.calls = s.wire.calls ++ [.query s.session.number client sql [] outcome.isOk] := by
  rcases statement_cases s sql [] with ⟨hc, hs⟩ | ⟨client, answer, t, hc, hs, ht, hw⟩
  · exact .inl ⟨hc, by rw [command, hs]; rfl⟩
  · have ho : (answer.map fun _ => ()).isOk = answer.isOk := by cases answer <;> rfl
    exact .inr ⟨client, answer.map fun _ => (), t, hc, by rw [command, hs], ho ▸ ht, ho ▸ hw⟩

theorem command_isOk (s : Scope σ) (sql : String) :
    (s.command sql).1.isOk = (s.statement sql []).1.isOk := by
  rcases h : s.statement sql [] with ⟨_ | _, t⟩ <;> rw [command, h] <;> rfl

theorem statement_connection (s : Scope σ) (sql : String) (params : List Json) :
    (s.statement sql params).2.connection = s.connection := by
  rcases statement_cases s sql params with ⟨-, hs⟩ | ⟨client, answer, t, -, hs, ht, -⟩ <;> rw [hs]
  rw [connection, ht]
  rfl

theorem command_connection (s : Scope σ) (sql : String) :
    (s.command sql).2.connection = s.connection :=
  statement_connection s sql []

/-- After BEGIN is accepted, an isolation statement may follow, and is taken back if it fails. -/
theorem openTransaction_cases (s : Scope σ) :
    (∃ e t, s.command "BEGIN" = (.error e, t) ∧ s.openTransaction = (.error e, t)) ∨
    ∃ t, s.command "BEGIN" = (.ok (), t) ∧
      ((t.session.config.isolation.statement = none ∧ s.openTransaction = (.ok (), t)) ∨
      ∃ isolation, t.session.config.isolation.statement = some isolation ∧
        ((∃ u, t.command isolation = (.ok (), u) ∧ s.openTransaction = (.ok (), u)) ∨
        ∃ e u, t.command isolation = (.error e, u) ∧
          s.openTransaction = (.error e, (u.command "ROLLBACK").2))) := by
  rcases hb : s.command "BEGIN" with ⟨e | _, t⟩
  · exact .inl ⟨e, t, rfl, by rw [openTransaction, hb]⟩
  refine .inr ⟨t, rfl, ?_⟩
  cases hi : t.session.config.isolation.statement with
  | none => exact .inl ⟨rfl, by simp only [openTransaction, hb, hi]⟩
  | some isolation =>
    refine .inr ⟨isolation, rfl, ?_⟩
    rcases hs : t.command isolation with ⟨e | _, u⟩
    · exact .inr ⟨e, u, rfl, by simp only [openTransaction, hb, hi, hs]⟩
    · exact .inl ⟨u, rfl, by simp only [openTransaction, hb, hi, hs]⟩

/-- What commands other than COMMIT keep is kept when a transaction is opened. -/
theorem openTransaction_keeps {P : Scope σ → Prop}
    (step : ∀ t sql, sql ≠ "COMMIT" → P t → P (t.command sql).2) {s : Scope σ} (h : P s) :
    P s.openTransaction.2 := by
  have hb := step s "BEGIN" (by decide) h
  rcases openTransaction_cases s with ⟨e, t, ht, ho⟩ | ⟨t, ht, ⟨-, ho⟩ | ⟨isolation, hq, hi⟩⟩
  · rwa [ho, ← ht]
  · rwa [ho, ← ht]
  rw [ht] at hb
  have hs := step t isolation (Isolation.statement_ne_commit hq) hb
  rcases hi with ⟨u, hu, ho⟩ | ⟨e, u, hu, ho⟩ <;> rw [ho] <;> rw [hu] at hs
  · exact hs
  · exact step u "ROLLBACK" (by decide) hs

theorem openTransaction_connection (s : Scope σ) :
    s.openTransaction.2.connection = s.connection :=
  openTransaction_keeps (P := fun t => t.connection = s.connection)
    (fun t sql _ h => (command_connection t sql).trans h) rfl

theorem begin_cases (s : Scope σ) :
    (∃ e t, s.retain = (.error e, t) ∧ s.begin = (.error e, t)) ∨
    ∃ t, s.retain = (.ok (), t) ∧
      ((0 < t.connection.depth ∧ s.begin = (.ok (), t.withDepth (t.connection.depth + 1))) ∨
      t.connection.depth = 0 ∧
        ((∃ u, t.openTransaction = (.ok (), u) ∧
          s.begin = (.ok (), (u.withDepth 1).publish .startedTransaction)) ∨
        ∃ e u, t.openTransaction = (.error e, u) ∧ s.begin = (.error e, u.release.2))) := by
  rcases hr : s.retain with ⟨e | _, t⟩
  · exact .inl ⟨e, t, rfl, by rw [begin, hr]⟩
  refine .inr ⟨t, rfl, ?_⟩
  by_cases hd : 0 < t.connection.depth
  · exact .inl ⟨hd, by simp only [begin, hr, hd, if_true]⟩
  refine .inr ⟨Nat.eq_zero_of_not_pos hd, ?_⟩
  rcases ho : t.openTransaction with ⟨e | _, u⟩
  · exact .inr ⟨e, u, rfl, by simp only [begin, hr, hd, if_false, ho]⟩
  · exact .inl ⟨u, rfl, by simp only [begin, hr, hd, if_false, ho]⟩

/-- Only the outermost transaction is told to the server as it ends. -/
theorem finish_cases (s : Scope σ) (failure : Option Error) :
    (s.connection.depth = 0 ∧ s.finish failure = (.error (.noTransaction s.session.number), s)) ∨
    (s.connection.depth = 1 ∧ (s.finish failure).2 =
      ((s.withDepth 0).endOutermost failure).2.release.2) ∨
    ∃ depth, s.connection.depth = depth + 2 ∧
      s.finish failure = (s.withDepth (depth + 1)).release := by
  rcases hd : s.connection.depth with _ | _ | depth
  · exact .inl ⟨rfl, by rw [finish, hd]⟩
  · exact .inr (.inl ⟨rfl, by simp only [finish, hd, if_true]⟩)
  · refine .inr (.inr ⟨depth, rfl, ?_⟩)
    simp only [finish, hd, Nat.add_eq_zero_iff, Nat.one_ne_zero, and_false, if_false]
    rfl

theorem close_cases (s : Scope σ) :
    ∃ t, (s.connection.depth = 0 ∧ t = s ∨ 0 < s.connection.depth ∧
        t = ((s.withDepth 0).command "ROLLBACK").2.publish
          (.endedTransaction (some "session closed") false)) ∧
      s.close.2 = if 0 < t.connection.count then t.disconnect else t := by
  by_cases hd : 0 < s.connection.depth
  · exact ⟨_, .inr ⟨hd, rfl⟩, by simp only [close, hd, if_true]⟩
  · exact ⟨s, .inl ⟨Nat.eq_zero_of_not_pos hd, rfl⟩, by simp only [close, hd, if_false]⟩

end Scope
end DataAccess
