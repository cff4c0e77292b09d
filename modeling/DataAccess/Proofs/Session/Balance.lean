import DataAccess.Link.Scripted
import DataAccess.Proofs.Session.Frame

/-!
The count of a session's users against the connections it has obtained and given back. Users
share one connection: it is there exactly while somebody uses it, every open transaction has its
own share in it, and each connection that was obtained is given back once.
-/
namespace DataAccess

def Call.obtains (n : Nat) : Call → Bool
  | .connect session accepted => session == n && accepted
  | _ => false

def Call.returns (n : Nat) : Call → Bool
  | .release session _ => session == n
  | _ => false

def Wire.obtained {σ : Type} (w : Wire σ) (n : Nat) : Nat := w.calls.countP (Call.obtains n)

def Wire.returned {σ : Type} (w : Wire σ) (n : Nat) : Nat := w.calls.countP (Call.returns n)

@[simp] theorem Call.obtains_connect (n session : Nat) (accepted : Bool) :
    obtains n (.connect session accepted) = (session == n && accepted) := rfl

@[simp] theorem Call.returns_release (n session client : Nat) :
    returns n (.release session client) = (session == n) := rfl

@[simp] theorem Call.countP_opens_failedTries (session : Nat) (delay : Duration) (k : Nat) :
    (failedTries session delay k).countP opens = 0 :=
  countP_failedTries rfl rfl k

@[simp] theorem Call.countP_obtains_failedTries (n session : Nat) (delay : Duration) (k : Nat) :
    (failedTries session delay k).countP (obtains n) = 0 :=
  countP_failedTries (by simp) rfl k

@[simp] theorem Call.countP_returns_failedTries (n session : Nat) (delay : Duration) (k : Nat) :
    (failedTries session delay k).countP (returns n) = 0 :=
  countP_failedTries rfl rfl k

namespace Scope
variable {σ : Type}

/-- The books of a session are in order. -/
structure Balanced (s : Scope σ) : Prop where
  held : s.connection.client.isSome ↔ 0 < s.connection.count
  depth_le : s.connection.depth ≤ s.connection.count
  obtained : s.wire.obtained s.session.number =
    s.wire.returned s.session.number + if 0 < s.connection.count then 1 else 0

/-- An open transaction has a connection. -/
theorem Balanced.connected {s : Scope σ} (h : s.Balanced) (hp : 0 < s.connection.depth) :
    s.connection.client.isSome :=
  h.held.mpr (Nat.lt_of_lt_of_le hp h.depth_le)

/-- Other sessions obtain and give back nothing while this one has its turn. -/
theorem Leads.others {s t : Scope σ} (h : s.Leads t) {n : Nat} (hn : n ≠ s.session.number) :
    t.wire.obtained n = s.wire.obtained n ∧ t.wire.returned n = s.wire.returned n := by
  obtain ⟨more, hm, hs⟩ := h.calls
  have none (f : Call → Bool) (hf : ∀ x, f x = true → x.session? = some n) :
      more.countP f = 0 := by
    rw [List.countP_eq_zero]
    exact fun x hx hfx => hn ((hs x hx).1 n (hf x hfx))
  constructor
  · rw [Wire.obtained, hm, List.countP_append, none, Nat.add_zero]
    · rfl
    · intro x hx
      cases x <;> simp_all [Call.obtains, Call.session?]
  · rw [Wire.returned, hm, List.countP_append, none, Nat.add_zero]
    · rfl
    · intro x hx
      cases x <;> simp_all [Call.returns, Call.session?]

/-- Calls that neither obtain nor give back a connection leave the books as they are. -/
theorem Balanced.of_calls {s t : Scope σ} (h : s.Balanced)
    (hn : t.session.number = s.session.number) (hc : t.connection = s.connection)
    {more : List Call}
    (hm : t.wire.calls = s.wire.calls ++ more)
    (ho : more.countP (Call.obtains s.session.number) = 0)
    (hr : more.countP (Call.returns s.session.number) = 0) : t.Balanced := by
  refine ⟨hc ▸ h.held, hc ▸ h.depth_le, ?_⟩
  have := h.obtained
  simp only [Wire.obtained, Wire.returned] at this ⊢
  simpa only [hn, hm, hc, List.countP_append, ho, hr, Nat.add_zero] using this

theorem Balanced.publish {s : Scope σ} (h : s.Balanced) (e : Event) : (s.publish e).Balanced :=
  ⟨h.held, h.depth_le, h.obtained⟩

theorem Balanced.withDepth {s : Scope σ} (h : s.Balanced) {depth : Nat}
    (hd : depth ≤ s.connection.count) : (s.withDepth depth).Balanced :=
  ⟨h.held, hd, h.obtained⟩

variable [Link σ]

theorem Balanced.statement {s : Scope σ} (h : s.Balanced) (sql : String) (params : List Json) :
    (s.statement sql params).2.Balanced := by
  rcases statement_cases s sql params with ⟨-, hs⟩ | ⟨client, answer, t, -, hs, ht, hw⟩ <;> rw [hs]
  · exact h
  · exact h.of_calls (by rw [ht]; rfl) (by rw [connection, ht]; rfl) hw rfl rfl

theorem Balanced.command {s : Scope σ} (h : s.Balanced) (sql : String) :
    (s.command sql).2.Balanced :=
  h.statement sql []

/-- A failed try to connect is undone; a successful one is the first user's share. -/
theorem Balanced.retain {s : Scope σ} (h : s.Balanced) : s.retain.2.Balanced := by
  have obtained := h.obtained
  rcases retain_cases s with ⟨hp, hr⟩ | ⟨hz, ⟨t, ht, hr⟩ | ⟨e, t, ht, hr⟩⟩ <;> rw [hr]
  · rw [if_pos hp] at obtained
    exact ⟨by simp [h.held.mpr hp], Nat.le_succ_of_le h.depth_le, by simpa using obtained⟩
  · obtain ⟨-, hs, k, hc⟩ := dial_ok ht
    -- nobody used the connection, so no transaction can be left from before
    have hd : s.connection.depth = 0 := Nat.eq_zero_of_le_zero (hz ▸ h.depth_le)
    simp only [Wire.obtained, Wire.returned, hz, Nat.lt_irrefl, if_false] at obtained
    refine ⟨by simp, by simp [hd], ?_⟩
    simp [Wire.obtained, Wire.returned, hs, hc, obtained, Call.returns]
  · obtain ⟨hs, k, hc⟩ := dial_error ht
    exact h.of_calls (by rw [hs]) (by rw [connection, hs]; rfl) hc (by simp)
      (by simp [Call.returns])

/-- A connection that is not needed any more is given back once. -/
theorem Balanced.disconnect {s : Scope σ} (h : s.Balanced) (hc : 0 < s.connection.count)
    (hd : s.connection.depth = 0) : s.disconnect.Balanced := by
  obtain ⟨client, hs⟩ := Option.isSome_iff_exists.mp (h.held.mpr hc)
  obtain ⟨hconn, hcalls⟩ := disconnect_of_client hs
  have obtained := h.obtained
  simp only [Wire.obtained, Wire.returned, if_pos hc] at obtained
  refine ⟨by simp [hconn], by simp [hconn, hd], ?_⟩
  simp [hconn, hcalls, (leads_disconnect s).number, Wire.obtained, Wire.returned, obtained,
    Call.obtains, Call.returns]

theorem Balanced.release {s : Scope σ} (h : s.Balanced) : s.release.2.Balanced := by
  rcases release_cases s with ⟨-, hr⟩ | ⟨hd, ⟨h1, hr⟩ | ⟨h1, hr⟩⟩ <;> rw [hr]
  · exact h
  · exact h.disconnect (by omega) (by omega)
  · have hpred : 0 < s.connection.count - 1 := by omega
    have obtained := h.obtained
    rw [if_pos (by omega)] at obtained
    constructor
    · simpa [hpred] using h.held.mpr (by omega)
    · exact Nat.le_sub_one_of_lt hd
    · simpa [hpred] using obtained

theorem Balanced.openTransaction {s : Scope σ} (h : s.Balanced) : s.openTransaction.2.Balanced :=
  openTransaction_keeps (fun _ sql _ h => h.command sql) h

/-- A transaction takes its share with it, and gives it up if it cannot be opened. -/
theorem Balanced.begin {s : Scope σ} (h : s.Balanced) : s.begin.2.Balanced := by
  have hr := h.retain
  rcases begin_cases s with ⟨e, t, ht, hb⟩ | ⟨t, ht, hb⟩
  · rwa [hb, ← ht]
  have ⟨hcount, hdepth⟩ := retain_ok ht
  have hd := h.depth_le
  replace hr : t.Balanced := by simpa only [ht] using hr
  have hconn := openTransaction_connection t
  have hopen := hr.openTransaction
  rcases hb with ⟨-, hb⟩ | ⟨-, ⟨u, hu, hb⟩ | ⟨e, u, hu, hb⟩⟩ <;> rw [hb]
  · exact hr.withDepth (by omega)
  · simp only [hu] at hconn hopen
    exact (hopen.withDepth (by rw [hconn]; omega)).publish _
  · simp only [hu] at hopen
    exact hopen.release

theorem Balanced.endOutermost {s : Scope σ} (h : s.Balanced) (failure : Option Error) :
    (s.endOutermost failure).2.Balanced :=
  (h.command _).publish _

theorem Balanced.finish {s : Scope σ} (h : s.Balanced) (failure : Option Error) :
    (s.finish failure).2.Balanced := by
  have hd := h.depth_le
  rcases finish_cases s failure with ⟨-, hf⟩ | ⟨-, hf⟩ | ⟨depth, hdepth, hf⟩ <;> rw [hf]
  · exact h
  · exact ((h.withDepth (Nat.zero_le _)).endOutermost failure).release
  · exact (h.withDepth (by omega)).release

/-- Closing gives the connection back, also when ROLLBACK fails. -/
theorem Balanced.close {s : Scope σ} (h : s.Balanced) : s.close.2.Balanced := by
  obtain ⟨t, ht, hc⟩ := close_cases s
  have hst : t.Balanced ∧ t.connection.depth = 0 := by
    rcases ht with ⟨hz, ht⟩ | ⟨-, ht⟩ <;> rw [ht]
    · exact ⟨h, hz⟩
    · exact ⟨((h.withDepth (Nat.zero_le _)).command _).publish _,
        congrArg Connection.depth (command_connection (s.withDepth 0) "ROLLBACK")⟩
  rw [hc]
  split_ifs with hp
  · exact hst.1.disconnect hp hst.2
  · exact hst.1

theorem Balanced.on {s : Scope σ} (h : s.Balanced) (o : Operation) : (o.on s).Balanced := by
  cases o with
  | retain => exact h.retain
  | release => exact h.release
  | begin => exact h.begin
  | finish failure => exact h.finish failure
  | statement sql params => exact h.statement sql params
  | close => exact h.close

/-- Who gives up a share that an open transaction needs is refused, and nothing changes. -/
theorem release_of_count_eq_depth {s : Scope σ} (h : s.connection.count = s.connection.depth) :
    s.release = (.error (.notRetained s.session.number), s) := by
  rw [release, if_pos (Nat.le_of_eq h)]

end Scope

namespace World
variable {σ : Type} [Link σ]

/-- The books of all sessions are in order. -/
def Balanced (w : World σ) : Prop := ∀ n, (w.session n).number = n ∧ (w.scope n).Balanced

omit [Link σ] in
theorem Fresh.balanced {w : World σ} (h : w.Fresh) : w.Balanced := by
  refine fun n => ⟨h.number n, ?_, ?_, ?_⟩ <;>
    simp [Scope.connection, h.connection n, Wire.obtained, Wire.returned, h.calls]

omit [Link σ] in
theorem Balanced.aside {w v : World σ} (h : w.Balanced) (a : w.Aside v) : v.Balanced := by
  intro n
  obtain ⟨hn, hb⟩ := h n
  have hm : v.wire.calls = w.wire.calls ++ [] := by rw [a.wire, List.append_nil]
  exact ⟨(a.number n).trans hn, hb.of_calls (a.number n) (a.connection n) hm rfl rfl⟩

/-- The turn of one session keeps the books of all. -/
theorem Balanced.perform {w : World σ} (h : w.Balanced) (n : Nat) (o : Operation) :
    (w.perform n o).Balanced := by
  have hl := Scope.leads_on o (w.scope n)
  intro m
  obtain ⟨hn, hb⟩ := h m
  by_cases hm : n = m
  · subst hm
    rw [perform_scope, perform_session]
    exact ⟨hl.number.trans hn, hb.on o⟩
  · have hs := perform_session_ne w hm o
    have ho := hl.others (n := m) (by rw [scope_session, (h n).1]; exact Ne.symm hm)
    refine ⟨hs ▸ hn, ?_, ?_, ?_⟩ <;> simp only [Scope.connection, scope_session, hs]
    · exact hb.held
    · exact hb.depth_le
    · have := hb.obtained
      rw [scope_session, hn] at this
      rw [scope_wire, perform_wire, hn, ho.1, ho.2]
      exact this

end World

/-- However the tasks of any number of users take turns, and whatever the link refuses: after
every operation a session has a connection exactly while it is used, no more transactions are open
than there are users, and all connections but the one in use have been given back. A user's share
that a transaction needs is not given up. -/
theorem connection_balanced {σ α : Type} [Link σ] {w : World σ} (fresh : w.Fresh)
    {tasks : List (Act (World σ) α)} (plans : ∀ t ∈ tasks, Plan (fun _ => True) t)
    (schedule : List Nat) (n : Nat) :
    let now := ((Crowd.start w tasks).follow schedule).world
    let c := (now.session n).connection
    (c.client.isSome ↔ 0 < c.count) ∧ c.depth ≤ c.count ∧
      (now.wire.obtained n : Int) - now.wire.returned n = (if 0 < c.count then 1 else 0) ∧
      (c.count = c.depth →
        (now.scope n).release = (.error (.notRetained n), now.scope n)) := by
  intro now c
  have balanced : now.Balanced := Plan.invariant (fun w n o _ h => h.perform n o)
    (fun w v a h => h.aside a) fresh.balanced plans schedule
  obtain ⟨hn, hb⟩ := balanced n
  refine ⟨hb.held, hb.depth_le, ?_, fun he => ?_⟩
  · have ho := hb.obtained
    rw [World.scope_session, hn] at ho
    rw [show now.wire.obtained n = now.wire.returned n + if 0 < c.count then 1 else 0 from ho]
    split_ifs <;> omega
  · have hr := Scope.release_of_count_eq_depth (s := now.scope n) he
    rwa [World.scope_session, hn] at hr

/-- One task is in a transaction, and another one may not take its share of the connection away. -/
theorem connection_balanced_in_transaction :
    let w : World Script := { wire := { link := { failures := [{ fragment := "COMMIT" }] } } }
    let tasks : List (Act (World Script) (List Record)) :=
      [Session.transaction 1 (Session.statement 1 "DELETE FROM t" []),
        do Session.release 1; Session.statement 1 "SELECT 1" []]
    w.Fresh ∧ (∀ t ∈ tasks, Plan (fun _ => True) t) ∧
      let now := ((Crowd.start w tasks).follow [0, 1, 0, 0, 0, 1]).world
      (now.session 1).connection = ⟨1, 1, some 1⟩ ∧
        (now.wire.obtained 1 : Int) - now.wire.returned 1 = 1 ∧
        (now.scope 1).release = (.error (.notRetained 1), now.scope 1) := by
  intro w tasks
  have fresh : w.Fresh := ⟨rfl, fun _ => rfl, fun _ => rfl⟩
  have plans : ∀ t ∈ tasks, Plan (fun _ => True) t := by
    simp only [tasks, List.forall_mem_cons]
    exact ⟨.transaction 1 (.statement 1 [] trivial),
      .bind (.release 1) fun _ => .statement 1 [] trivial, by simp⟩
  have connection :
      ((((Crowd.start w tasks).follow [0, 1, 0, 0, 0, 1]).world).session 1).connection =
        ⟨1, 1, some 1⟩ := by decide
  have balanced := connection_balanced fresh plans [0, 1, 0, 0, 0, 1] 1
  simp only [connection] at balanced
  exact ⟨fresh, plans, connection, balanced.2.2.1, balanced.2.2.2 trivial⟩

end DataAccess
