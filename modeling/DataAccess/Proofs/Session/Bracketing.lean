import DataAccess.Proofs.Session.Control
import Mathlib.Data.List.Chain

/-!
Transactions as the server sees them. On each connection every BEGIN that is accepted is answered
by one COMMIT or ROLLBACK before the connection is given back, and nothing else is committed or
rolled back.
-/
namespace DataAccess

/-- What happens to the transactions of a connection. -/
inductive Mark where
  | opened
  | begun
  | refused
  | ended
  | released
  deriving DecidableEq

namespace Mark

/-- Whether one mark may come next after another: a transaction that has begun is ended next, only
such a one is ended, and nothing follows when the connection is given back. -/
def Precedes (a b : Mark) : Prop := a ≠ .released ∧ (a = .begun ↔ b = .ended)

instance (a b : Mark) : Decidable (a.Precedes b) := by
  unfold Precedes
  infer_instance

/-- The marks of a connection, each in its place after the one before it. -/
def Bracketed (marks : List Mark) : Prop := (Mark.opened :: marks).IsChain Precedes

/-- The last mark; a connection without any has just been opened. -/
def last (marks : List Mark) : Mark := marks.getLast?.getD .opened

theorem bracketed_nil : Bracketed [] := List.isChain_singleton _

theorem bracketed_concat (marks : List Mark) (m : Mark) :
    Bracketed (marks ++ [m]) ↔ Bracketed marks ∧ (last marks).Precedes m := by
  rw [Bracketed, ← List.cons_append, List.isChain_append]
  simp [Bracketed, last, List.getLast?_cons]

@[simp] theorem last_concat (marks : List Mark) (m : Mark) : last (marks ++ [m]) = m := by
  simp [last]

end Mark

def Mark.ofStatement? (sql : String) (accepted : Bool) : Option Mark :=
  if sql = "BEGIN" then some (if accepted then .begun else .refused)
  else if sql = "COMMIT" ∨ sql = "ROLLBACK" then some .ended
  else none

def Call.mark? (client : Nat) : Call → Option Mark
  | .query _ c sql _ accepted => if c = client then Mark.ofStatement? sql accepted else none
  | .release _ c => if c = client then some .released else none
  | _ => none

namespace Wire
variable {σ : Type}

def marks (w : Wire σ) (client : Nat) : List Mark := w.calls.filterMap (Call.mark? client)

end Wire

/-- Tries to connect mean nothing for transactions. -/
theorem Call.mark?_tries (session : Nat) (delay : Duration) (k : Nat) (accepted : Bool) :
    ∀ x ∈ failedTries session delay k ++ [.connect session accepted], ∀ c, x.mark? c = none :=
  forall_tries (P := fun x => ∀ c, x.mark? c = none) (fun _ _ => rfl) (fun _ => rfl) k accepted

theorem Mark.ofStatement?_eq_none {sql : String} (h : isControl sql = false) (accepted : Bool) :
    Mark.ofStatement? sql accepted = none := by
  simp only [isControl, List.contains_eq_mem, List.mem_cons, List.not_mem_nil, or_false,
    decide_eq_false_iff_not, not_or] at h
  simp [ofStatement?, h]

namespace Scope
variable {σ : Type}

/-- The connections are in order, and the session's own has a transaction open if so stated. -/
structure Orderly (s : Scope σ) (running : Bool) : Prop where
  bracketed : ∀ c, Mark.Bracketed (s.wire.marks c)
  unused : ∀ c, s.wire.opened < c → s.wire.marks c = []
  own : ∀ c, s.connection.client = some c → c ≤ s.wire.opened ∧
    Mark.last (s.wire.marks c) ≠ .released ∧ (Mark.last (s.wire.marks c) = .begun ↔ running)
  idle : s.connection.client = none → running = false

/-- Connections of others, and those given back, see nothing of a turn. -/
theorem Leads.marks_eq {s t : Scope σ} (h : s.Leads t) {c : Nat} (hc : c ≤ s.wire.opened)
    (hs : s.connection.client ≠ some c) : t.wire.marks c = s.wire.marks c := by
  obtain ⟨more, hm, hmakes⟩ := h.calls
  have none : more.filterMap (Call.mark? c) = [] := by
    rw [List.filterMap_eq_nil_iff]
    intro x hx
    have hclient : x.client? ≠ some c := fun hxc =>
      ((hmakes x hx).2 c hxc).elim hs (Nat.not_lt_of_le hc)
    cases x <;> simp_all [Call.mark?, Call.client?]
  rw [Wire.marks, hm, List.filterMap_append, none, List.append_nil]
  rfl

theorem marks_of_calls {s t : Scope σ} {more : List Call}
    (hm : t.wire.calls = s.wire.calls ++ more) (hq : ∀ x ∈ more, ∀ c, x.mark? c = none) (c : Nat) :
    t.wire.marks c = s.wire.marks c := by
  rw [Wire.marks, hm, List.filterMap_append,
    List.filterMap_eq_nil_iff.mpr fun x hx => hq x hx c, List.append_nil]
  rfl

/-- Calls without meaning for transactions keep order. -/
theorem Orderly.of_calls {s t : Scope σ} {running : Bool} (h : s.Orderly running)
    (hc : t.connection.client = s.connection.client) {more : List Call}
    (hm : t.wire.calls = s.wire.calls ++ more) (hq : ∀ x ∈ more, ∀ c, x.mark? c = none)
    (ho : more.countP Call.opens = 0) : t.Orderly running := by
  have marks := marks_of_calls hm hq
  have opened : t.wire.opened = s.wire.opened := by
    rw [Wire.opened, hm, List.countP_append, ho, Nat.add_zero]
    rfl
  exact ⟨fun c => marks c ▸ h.bracketed c, fun c hlt => (marks c).trans (h.unused c (opened ▸ hlt)),
    fun c hcl => by rw [marks, opened]; exact h.own c (hc ▸ hcl), fun hn => h.idle (hc ▸ hn)⟩

theorem Orderly.withConnection {s : Scope σ} {running : Bool} (h : s.Orderly running)
    {c : Connection} (hc : c.client = s.connection.client) :
    (s.withConnection c).Orderly running :=
  h.of_calls hc (List.append_nil _).symm (by simp) rfl

theorem Orderly.withDepth {s : Scope σ} {running : Bool} (h : s.Orderly running) (depth : Nat) :
    (s.withDepth depth).Orderly running :=
  h.withConnection rfl

theorem Orderly.publish {s : Scope σ} {running : Bool} (h : s.Orderly running) (e : Event) :
    (s.publish e).Orderly running :=
  h.of_calls rfl (List.append_nil _).symm (by simp) rfl

/-- A call that marks the session's own connection. -/
theorem Orderly.mark {s t : Scope σ} {running : Bool} (h : s.Orderly running) {client : Nat}
    (hs : s.connection.client = some client) {x : Call}
    (hx : t.wire.calls = s.wire.calls ++ [x]) (ho : x.opens = false) {m : Mark}
    (hm : ∀ c, x.mark? c = if client = c then some m else none) (hp : m = .ended ↔ running)
    (ht : t.connection.client = if m = .released then none else some client) :
    t.Orderly (decide (m = .begun)) := by
  have marks (c : Nat) : t.wire.marks c =
      s.wire.marks c ++ if client = c then [m] else [] := by
    rw [Wire.marks, hx, List.filterMap_append]
    congr 1
    simp only [List.filterMap_cons, List.filterMap_nil, hm]
    split_ifs <;> rfl
  have opened : t.wire.opened = s.wire.opened := by simp [Wire.opened, hx, ho]
  obtain ⟨hle, hnr, hb⟩ := h.own client hs
  refine ⟨fun c => ?_, fun c hlt => ?_, fun c hcl => ?_, fun hn => ?_⟩
  · rw [marks]
    split_ifs with he
    · subst he
      exact (Mark.bracketed_concat _ _).mpr ⟨h.bracketed client, hnr, hb.trans hp.symm⟩
    · simpa using h.bracketed c
  · rw [opened] at hlt
    have hne : client ≠ c := by omega
    simp [marks, hne, h.unused c hlt]
  · rw [ht] at hcl
    split_ifs at hcl with hr
    obtain rfl : client = c := Option.some.inj hcl
    simp [marks, opened, hle, hr]
  · rw [ht] at hn
    split_ifs at hn with hr
    simp [hr]

variable [Link σ]

theorem Orderly.statement {s : Scope σ} {running : Bool} (h : s.Orderly running) {sql : String}
    (hq : isControl sql = false) (params : List Json) :
    (s.statement sql params).2.Orderly running := by
  rcases statement_cases s sql params with ⟨-, hs⟩ | ⟨client, answer, t, hc, hs, ht, hw⟩ <;> rw [hs]
  · exact h
  · refine h.of_calls (by rw [connection, ht]; rfl) hw ?_ rfl
    simp [Call.mark?, Mark.ofStatement?_eq_none hq]

/-- BEGIN opens a transaction if it is accepted, and none otherwise. -/
theorem Orderly.beginning {s : Scope σ} (h : s.Orderly false) :
    (s.command "BEGIN").2.Orderly (s.command "BEGIN").1.isOk := by
  rcases command_cases s "BEGIN" with ⟨-, hs⟩ | ⟨client, outcome, t, hc, hs, ht, hw⟩ <;> rw [hs]
  · exact h
  have hm := h.mark hc hw rfl (m := if outcome.isOk then .begun else .refused) (t := t)
    (fun c => rfl)
  have hb : decide ((if outcome.isOk then Mark.begun else Mark.refused) = .begun) =
      outcome.isOk := by
    cases outcome.isOk <;> rfl
  rw [hb] at hm
  refine hm ?_ ?_
  · split_ifs <;> simp
  · rw [if_neg (by split_ifs <;> simp), connection, ht]
    exact hc

/-- COMMIT and ROLLBACK end the open transaction, also if they fail. -/
theorem Orderly.ending {s : Scope σ} (h : s.Orderly true) {sql : String}
    (hq : sql = "COMMIT" ∨ sql = "ROLLBACK") : (s.command sql).2.Orderly false := by
  rcases command_cases s sql with ⟨hn, -⟩ | ⟨client, outcome, t, hc, hs, ht, hw⟩
  · exact absurd (h.idle hn) (by decide)
  rw [hs]
  refine h.mark hc hw rfl (m := .ended) (fun c => ?_) (by simp) ?_
  · rcases hq with rfl | rfl <;> rfl
  · rw [connection, ht]
    exact hc

/-- A new connection has seen no transaction. -/
theorem Orderly.retain {s : Scope σ} {running : Bool} (h : s.Orderly running)
    (hb : s.Balanced) : s.retain.2.Orderly running := by
  rcases retain_cases s with ⟨-, hr⟩ | ⟨hz, ⟨t, ht, hr⟩ | ⟨e, t, ht, hr⟩⟩ <;> rw [hr]
  · exact h.withConnection rfl
  · obtain ⟨-, hs, k, hc⟩ := dial_ok ht
    have marks := marks_of_calls hc (Call.mark?_tries _ _ k true)
    have opened : t.wire.opened = s.wire.opened + 1 := by simp [Wire.opened, hc, Call.opens]
    have idle : running = false := h.idle (Option.not_isSome_iff_eq_none.mp (by simp [hb.held, hz]))
    refine ⟨fun c => ?_, fun c hlt => ?_, fun c hcl => ?_, fun _ => idle⟩
    · exact (marks c).symm ▸ h.bracketed c
    · simp only [wire_publish, wire_withConnection] at hlt
      exact (marks c).trans (h.unused c (by omega))
    · obtain rfl : s.wire.opened + 1 = c := Option.some.inj hcl
      simp [marks, opened, h.unused _ (Nat.lt_succ_self _), Mark.last, idle]
  · obtain ⟨hs, k, hc⟩ := dial_error ht
    exact h.of_calls (by rw [connection, hs]; rfl) hc
      (Call.mark?_tries _ _ k false) (by simp [Call.opens])

/-- A connection is given back with no transaction open. -/
theorem Orderly.disconnect {s : Scope σ} (h : s.Orderly false) : s.disconnect.Orderly false := by
  cases hs : s.connection.client with
  | none =>
    rw [Scope.disconnect, hs]
    exact (h.withConnection hs.symm).publish _
  | some client =>
    obtain ⟨hconn, hcalls⟩ := disconnect_of_client hs
    exact h.mark hs hcalls rfl (m := .released) (fun c => rfl) (by simp) (by simp [hconn])

theorem disconnect_depth (s : Scope σ) :
    s.disconnect.connection.depth = s.connection.depth := by
  rw [disconnect_connection]

theorem release_depth (s : Scope σ) :
    s.release.2.connection.depth = s.connection.depth := by
  rcases release_cases s with ⟨-, hr⟩ | ⟨-, ⟨-, hr⟩ | ⟨-, hr⟩⟩ <;> rw [hr]
  · exact disconnect_depth s
  · rfl

/-- The last user leaves only when no transaction is open. -/
theorem Orderly.release {s : Scope σ} (h : s.Orderly (decide (0 < s.connection.depth))) :
    s.release.2.Orderly (decide (0 < s.connection.depth)) := by
  rcases release_cases s with ⟨-, hr⟩ | ⟨hd, ⟨h1, hr⟩ | ⟨-, hr⟩⟩ <;> rw [hr]
  · exact h
  · have hz : decide (0 < s.connection.depth) = false := decide_eq_false (by omega)
    rw [hz] at h ⊢
    exact h.disconnect
  · exact h.withConnection rfl

/-- A transaction is open on the server if opening it has succeeded. -/
theorem Orderly.openTransaction {s : Scope σ} (h : s.Orderly false) :
    s.openTransaction.2.Orderly s.openTransaction.1.isOk := by
  have hb := h.beginning
  rcases openTransaction_cases s with ⟨e, t, ht, ho⟩ | ⟨t, ht, ⟨-, ho⟩ | ⟨isolation, hq, hi⟩⟩
  · rw [ht] at hb
    exact ho ▸ hb
  · rw [ht] at hb
    exact ho ▸ hb
  rw [ht] at hb
  have hs : (t.command isolation).2.Orderly true :=
    Orderly.statement hb (Isolation.statement_not_control hq) []
  rcases hi with ⟨u, hu, ho⟩ | ⟨e, u, hu, ho⟩ <;> rw [ho] <;> rw [hu] at hs
  · exact hs
  · exact hs.ending (.inr rfl)

theorem Orderly.begin {s : Scope σ} (h : s.Orderly (decide (0 < s.connection.depth)))
    (hb : s.Balanced) : s.begin.2.Orderly (decide (0 < s.begin.2.connection.depth)) := by
  have hr := h.retain hb
  have hd := retain_depth s
  rcases begin_cases s with ⟨e, t, ht, he⟩ | ⟨t, ht, ⟨hp, he⟩ | ⟨hz, ho⟩⟩
  · simp only [ht] at hr hd
    simpa only [he, hd] using hr
  · simp only [ht] at hr hd
    rw [decide_eq_true (hd ▸ hp)] at hr
    simpa [he] using hr.withDepth (t.connection.depth + 1)
  simp only [ht] at hr hd
  rw [decide_eq_false (by omega)] at hr
  have hopen := Orderly.openTransaction hr
  have hconn := openTransaction_connection t
  rcases ho with ⟨u, hu, he⟩ | ⟨e, u, hu, he⟩ <;> rw [he] <;> rw [hu] at hopen hconn
  · exact (hopen.withDepth 1).publish .startedTransaction
  · have hu0 : u.connection.depth = 0 := by rw [hconn, hz]
    rw [release_depth]
    exact Orderly.release (by rwa [hu0])

theorem Orderly.endOutermost {s : Scope σ} (h : s.Orderly true) (failure : Option Error) :
    (s.endOutermost failure).2.Orderly false :=
  (h.ending (by split <;> simp)).publish _

theorem Orderly.finish {s : Scope σ} (h : s.Orderly (decide (0 < s.connection.depth)))
    (failure : Option Error) :
    (s.finish failure).2.Orderly (decide (0 < (s.finish failure).2.connection.depth)) := by
  rcases finish_cases s failure with ⟨-, hf⟩ | ⟨h1, hf⟩ | ⟨depth, h2, hf⟩ <;> rw [hf]
  · exact h
  · rw [h1] at h
    have he := (h.withDepth 0).endOutermost failure
    have hz : ((s.withDepth 0).endOutermost failure).2.connection.depth = 0 :=
      congrArg Connection.depth (command_connection (s.withDepth 0) _)
    rw [release_depth]
    exact Orderly.release (by rwa [hz])
  · rw [h2] at h
    rw [release_depth]
    exact Orderly.release (h.withDepth (depth + 1))

/-- Closing ends an open transaction first. -/
theorem Orderly.close {s : Scope σ} (h : s.Orderly (decide (0 < s.connection.depth))) :
    s.close.2.Orderly (decide (0 < s.close.2.connection.depth)) := by
  obtain ⟨t, ht, hc⟩ := close_cases s
  have hst : t.Orderly false ∧ t.connection.depth = 0 := by
    rcases ht with ⟨hz, ht⟩ | ⟨hp, ht⟩ <;> rw [ht]
    · exact ⟨by simpa [hz] using h, hz⟩
    · rw [decide_eq_true hp] at h
      exact ⟨((h.withDepth 0).ending (.inr rfl)).publish _,
        congrArg Connection.depth (command_connection (s.withDepth 0) "ROLLBACK")⟩
  have hz : s.close.2.connection.depth = 0 := by
    rw [hc]
    split_ifs
    · exact (disconnect_depth t).trans hst.2
    · exact hst.2
  rw [hz, hc]
  split_ifs
  · exact hst.1.disconnect
  · exact hst.1

theorem Orderly.on {s : Scope σ} (h : s.Orderly (decide (0 < s.connection.depth)))
    (hb : s.Balanced) {o : Operation} (ho : o.Admitted fun sql => isControl sql = false) :
    (o.on s).Orderly (decide (0 < (o.on s).connection.depth)) := by
  cases o with
  | retain =>
    have := h.retain hb
    rwa [← retain_depth s] at this
  | release =>
    have := h.release
    rwa [← release_depth s] at this
  | begin => exact h.begin hb
  | finish failure => exact h.finish failure
  | statement sql params =>
    have := h.statement ho params
    rwa [← statement_connection s sql params] at this
  | close => exact h.close

end Scope

namespace World
variable {σ : Type}

/-- The connections of all sessions are in order, and no two sessions share one. -/
structure Bracketed (w : World σ) : Prop where
  balanced : w.Balanced
  orderly : ∀ n, (w.scope n).Orderly (decide (0 < (w.session n).connection.depth))
  apart : ∀ n m c, (w.session n).connection.client = some c →
    (w.session m).connection.client = some c → n = m

theorem Fresh.bracketed {w : World σ} (h : w.Fresh) : w.Bracketed := by
  have marks (n c : Nat) : (w.scope n).wire.marks c = [] := by simp [Wire.marks, h.calls]
  refine ⟨h.balanced, fun n => ⟨fun c => ?_, fun c _ => marks n c, fun c hc => ?_, fun _ => ?_⟩,
    fun n m c hn => ?_⟩
  · exact (marks n c).symm ▸ Mark.bracketed_nil
  · simp [Scope.connection, h.connection n] at hc
  · simp [h.connection n]
  · simp [h.connection n] at hn

theorem Bracketed.aside {w v : World σ} (h : w.Bracketed) (a : w.Aside v) : v.Bracketed := by
  refine ⟨h.balanced.aside a, fun n => ?_, fun n m c hn hm => ?_⟩
  · have hw : v.wire.calls = w.wire.calls ++ [] := by rw [a.wire, List.append_nil]
    rw [a.connection]
    exact (h.orderly n).of_calls (congrArg Connection.client (a.connection n)) hw (by simp) rfl
  · rw [a.connection] at hn hm
    exact h.apart n m c hn hm

variable [Link σ]

/-- While one session has its turn, the connections of the others stay as they are. -/
theorem Bracketed.perform {w : World σ} (h : w.Bracketed) (n : Nat) {o : Operation}
    (ho : o.Admitted fun sql => isControl sql = false) : (w.perform n o).Bracketed := by
  have hl := Scope.leads_on o (w.scope n)
  have hn : ((w.perform n o).scope n).Orderly
      (decide (0 < ((w.perform n o).session n).connection.depth)) := by
    rw [perform_scope, perform_session]
    exact (h.orderly n).on (h.balanced n).2 ho
  -- what session `n` holds now is its old connection or a new one, so nobody else holds it
  have foreign {m c : Nat} (hm : n ≠ m) (hc : (w.session m).connection.client = some c) :
      ((w.perform n o).session n).connection.client ≠ some c := by
    intro hown
    have hle : c ≤ w.wire.opened := ((h.orderly m).own c hc).1
    rcases hl.client c (by rwa [perform_session] at hown) with hold | hnew
    · exact hm (h.apart n m c hold hc)
    · exact absurd hle (Nat.not_le_of_lt hnew)
  refine ⟨h.balanced.perform n o, fun m => ?_, fun m k c hm hk => ?_⟩
  · by_cases hm : n = m
    · exact hm ▸ hn
    have hs := perform_session_ne w hm o
    rw [hs]
    refine ⟨hn.bracketed, hn.unused, fun c hc => ?_, fun hc => (h.orderly m).idle ?_⟩
    · rw [Scope.connection, scope_session, hs] at hc
      obtain ⟨hle, hown⟩ := (h.orderly m).own c hc
      have hother : (w.scope n).connection.client ≠ some c := fun hcn => hm (h.apart n m c hcn hc)
      refine ⟨Nat.le_trans hle hl.opened, ?_⟩
      rw [scope_wire, perform_wire, hl.marks_eq hle hother]
      exact hown
    · rwa [Scope.connection, scope_session, hs] at hc
  · by_cases hnm : n = m <;> by_cases hnk : n = k
    · exact hnm.symm.trans hnk
    · subst hnm
      rw [perform_session_ne w hnk] at hk
      exact absurd hm (foreign hnk hk)
    · subst hnk
      rw [perform_session_ne w hnm] at hm
      exact absurd hk (foreign hnm hm)
    · rw [perform_session_ne w hnm] at hm
      rw [perform_session_ne w hnk] at hk
      exact h.apart m k c hm hk

end World

/-- However the tasks of any number of users take turns, and whatever the link refuses, as long as
the users send no such statements themselves: on every connection each accepted BEGIN is answered
by one COMMIT or ROLLBACK before the next BEGIN and before the connection is given back, and there
is no other COMMIT or ROLLBACK. A COMMIT is sent when the outermost transaction ends, nothing has
failed and changes are kept; inner transactions send nothing. -/
theorem transactions_bracketed {σ α : Type} [Link σ] {w : World σ} (fresh : w.Fresh)
    {tasks : List (Act (World σ) α)}
    (plans : ∀ t ∈ tasks, Plan (fun sql => isControl sql = false) t) (schedule : List Nat) :
    let now := ((Crowd.start w tasks).follow schedule).world
    (∀ client, Mark.Bracketed (now.wire.marks client)) ∧
      ∀ n (o : Operation), o.Admitted (fun sql => isControl sql = false) →
        let depth := (now.session n).connection.depth
        let commit := (now.session n).config.commit
        ∃ sent, (now.perform n o).wire.controls = now.wire.controls ++ sent ∧
          ("COMMIT" ∈ sent ↔ o = .finish none ∧ depth = 1 ∧ commit = true) ∧
          (∀ failure, o = .finish failure →
            sent = if depth = 1 then [endingStatement failure commit] else []) ∧
          (o = .begin → 0 < depth → sent = []) := by
  intro now
  have bracketed : now.Bracketed := Plan.invariant (fun w n o ho h => h.perform n ho)
    (fun w v a h => h.aside a) fresh.bracketed plans schedule
  refine ⟨(bracketed.orderly 0).bracketed, fun n o ho => ?_⟩
  exact Scope.sends_on (bracketed.balanced n).2 ho

/-- The inner transaction has ended without a word, the statement of another user has failed, and
the outer transaction is about to be committed. -/
theorem transactions_bracketed_nested :
    let w : World Script := { wire := { link := { failures := [{ fragment := "SELECT" }] } } }
    let tasks : List (Act (World Script) (List Record)) :=
      [Session.transaction 1 (Session.transaction 1 (Session.statement 1 "DELETE FROM t" [])),
        Session.retained 1 (Session.statement 1 "SELECT 1" [])]
    w.Fresh ∧ (∀ t ∈ tasks, Plan (fun sql => isControl sql = false) t) ∧
      let now := ((Crowd.start w tasks).follow (List.replicate 20 [0, 1]).flatten).world
      now.wire.controls = ["BEGIN"] ∧ (∀ client, Mark.Bracketed (now.wire.marks client)) ∧
        (now.perform 1 (.finish none)).wire.controls = ["BEGIN", "COMMIT"] := by
  intro w tasks
  have fresh : w.Fresh := ⟨rfl, fun _ => rfl, fun _ => rfl⟩
  have plans : ∀ t ∈ tasks, Plan (fun sql => isControl sql = false) t := by
    simp only [tasks, List.forall_mem_cons]
    exact ⟨.transaction 1 (.transaction 1 (.statement 1 [] rfl)), .retained 1 (.statement 1 [] rfl),
      by simp⟩
  refine ⟨fresh, plans, ?_⟩
  intro now
  have controls : now.wire.controls = ["BEGIN"] := by decide
  have depth : (now.session 1).connection.depth = 1 := by decide
  have commit : (now.session 1).config.commit = true := by decide
  have bracketed := transactions_bracketed fresh plans (List.replicate 20 [0, 1]).flatten
  obtain ⟨sent, hs, -, hf, -⟩ := bracketed.2 1 (.finish none) trivial
  refine ⟨controls, bracketed.1, ?_⟩
  rw [hs, controls, hf none rfl, if_pos depth, commit]
  rfl

end DataAccess
