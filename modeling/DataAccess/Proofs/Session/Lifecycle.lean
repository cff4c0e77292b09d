import DataAccess.Link.Scripted
import DataAccess.Proofs.Session.Beat
import DataAccess.Proofs.Session.Frame
import DataAccess.Proofs.Session.Phase

/-!
Sessions pass from phase to phase. Every beat of an operation is a passage, and so is, of each
session, every run of any tasks.
-/
namespace DataAccess

namespace Wire
variable {σ : Type} {w v : Wire σ}

theorem statements_of_calls {more : List Call} (h : v.calls = w.calls ++ more) (n : Nat) :
    v.statements n = w.statements n ++ more.filterMap (Call.statement? n) := by
  rw [statements, h, List.filterMap_append]
  rfl

/-- Calls that are no statements of the session add none. -/
theorem statements_eq_of_calls {n : Nat} {more : List Call} (h : v.calls = w.calls ++ more)
    (quiet : ∀ x ∈ more, x.statement? n = none) : v.statements n = w.statements n := by
  rw [statements_of_calls h, List.filterMap_eq_nil_iff.mpr quiet, List.append_nil]

end Wire

namespace Scope
variable {σ : Type}

/-- From `s` to `t` the session has told and sent what the log says. -/
structure Logs (s t : Scope σ) (log : List Happening) : Prop where
  number : t.session.number = s.session.number
  told : t.session.lifecycle = s.session.lifecycle ++ log.filterMap Happening.told?
  sent : t.wire.statements s.session.number =
    s.wire.statements s.session.number ++ log.filterMap Happening.sent?

theorem Logs.refl (s : Scope σ) : s.Logs s [] :=
  ⟨rfl, (List.append_nil _).symm, (List.append_nil _).symm⟩

theorem Logs.trans {s t u : Scope σ} {log later : List Happening} (h : s.Logs t log)
    (k : t.Logs u later) : s.Logs u (log ++ later) := by
  refine ⟨k.number.trans h.number, ?_, ?_⟩
  · rw [k.told, h.told, List.filterMap_append, List.append_assoc]
  · rw [← h.number, k.sent, h.number, h.sent, List.filterMap_append, List.append_assoc]

/-- What is told goes into the log if it is about the connection. -/
theorem logs_publish (s : Scope σ) {e : Event} (h : e.isAnnouncement = false) :
    s.Logs (s.publish e) [.told e] := by
  refine ⟨rfl, ?_, (List.append_nil _).symm⟩
  simp [Session.lifecycle, publish, Session.publish, h]

theorem logs_withConnection (s : Scope σ) (c : Connection) : s.Logs (s.withConnection c) [] :=
  ⟨rfl, (List.append_nil _).symm, (List.append_nil _).symm⟩

theorem logs_of_quiet {s t : Scope σ} {more : List Call} (hs : t.session = s.session)
    (hc : t.wire.calls = s.wire.calls ++ more)
    (quiet : ∀ x ∈ more, x.statement? s.session.number = none) : s.Logs t [] := by
  refine ⟨by rw [hs], by simp [hs], ?_⟩
  rw [Wire.statements_eq_of_calls hc quiet]
  simp

theorem logs_tries {s t : Scope σ} {delay : Duration} {k : Nat} {accepted : Bool}
    (hs : t.session = s.session) (hc : t.wire.calls = s.wire.calls ++
      (Call.failedTries s.session.number delay k ++ [.connect s.session.number accepted])) :
    s.Logs t [] :=
  logs_of_quiet hs hc (Call.forall_tries (P := fun x => x.statement? s.session.number = none)
    (fun _ => rfl) rfl k accepted)

variable [Link σ] {commits : Prop}

theorem logs_statement {s : Scope σ} {client : Nat} (h : s.connection.client = some client)
    (sql : String) (params : List Json) :
    s.Logs (s.statement sql params).2
      [.sent ⟨sql, params, (s.statement sql params).1.isOk⟩] := by
  rcases statement_cases s sql params with ⟨hn, -⟩ | ⟨client, answer, t, -, hs, ht, hc⟩
  · rw [h] at hn
    contradiction
  rw [hs]
  refine ⟨by rw [ht]; rfl, by rw [ht]; simp [Session.lifecycle, Session.record], ?_⟩
  rw [Wire.statements_of_calls hc]
  simp [Call.statement?]

theorem logs_disconnect (s : Scope σ) : s.Logs s.disconnect [.told .disconnected] := by
  unfold disconnect
  split
  next client hc =>
    have released : s.Logs (s.answered (Link.release s.wire.link client)
        (.release s.session.number client)) [] :=
      logs_of_quiet rfl rfl (by simp [Call.statement?])
    exact (released.trans (logs_withConnection _ _)).trans (logs_publish _ rfl)
  next => exact (logs_withConnection s _).trans (logs_publish _ rfl)

/-- From `s` to `t` the session passes through phases that fit its connection. -/
def Passes (commits : Prop) (s t : Scope σ) : Prop :=
  ∃ log, s.Logs t log ∧ ∀ p : Phase, p.Fits s.connection →
    ∃ q : Phase, p.Passes commits log q ∧ q.Fits t.connection

omit [Link σ] in
theorem Passes.refl (s : Scope σ) : s.Passes commits s :=
  ⟨[], .refl s, fun p hp => ⟨p, .nil, hp⟩⟩

omit [Link σ] in
theorem Passes.trans {s t u : Scope σ} (h : s.Passes commits t) (k : t.Passes commits u) :
    s.Passes commits u := by
  obtain ⟨log, hlog, hp⟩ := h
  obtain ⟨later, hlater, hq⟩ := k
  refine ⟨log ++ later, hlog.trans hlater, fun p hfit => ?_⟩
  obtain ⟨q, hpq, hfit⟩ := hp p hfit
  obtain ⟨r, hqr, hfit⟩ := hq q hfit
  exact ⟨r, hpq.trans hqr, hfit⟩

/-- The end of a transaction is sent, if the session is connected, and told. -/
theorem passes_ended {s : Scope σ} {sql : String} (error : Option String)
    (hdepth : 0 < s.connection.depth) (hsql : sql = "COMMIT" ∨ sql = "ROLLBACK") :
    s.Passes commits (((s.withDepth 0).command sql).2.publish (.endedTransaction error
      (sql == "COMMIT" && ((s.withDepth 0).command sql).1.isOk))) := by
  have inner : s.Logs (s.withDepth 0) [] := logs_withConnection s _
  cases hc : s.connection.client with
  | none =>
    have idle : (s.withDepth 0).command sql =
        (.error (.notConnected s.session.number), s.withDepth 0) := by
      rw [command, statement, show (s.withDepth 0).connection.client = none from hc]
      rfl
    rw [idle]
    refine ⟨_, inner.trans (logs_publish _ rfl), fun p hp => ?_⟩
    have client := (hp.running_iff.mpr hdepth ▸ hp).2.2
    rw [hc] at client
    contradiction
  | some client =>
    have sent := logs_statement (s := s.withDepth 0) hc sql []
    refine ⟨_, (inner.trans sent).trans (logs_publish _ rfl), fun p hp => ?_⟩
    obtain rfl := hp.running_iff.mpr hdepth
    refine ⟨.connected, ?_, ?_⟩
    · rw [command_isOk]
      exact .ended error .nil hsql
    · rw [connection_publish, command_connection]
      exact ⟨hp.1, rfl, hp.2.2⟩

theorem Beat.passes {s t : Scope σ} (h : Beat (CallersCommit commits) s t) :
    s.Passes commits t := by
  cases h with
  | undialed hd =>
    obtain ⟨hs, k, hc⟩ := dial_error hd
    exact ⟨[], logs_tries hs hc, fun p hp => ⟨p, .nil, by rwa [connection, hs]⟩⟩
  | @dialed t client hz hd =>
    obtain ⟨-, hs, k, hc⟩ := dial_ok hd
    refine ⟨[.told .connected],
      ((logs_tries hs hc).trans (logs_withConnection t _)).trans (logs_publish _ rfl),
      fun p hp => ?_⟩
    cases p with
    | apart => exact ⟨.connected, .connected .nil, Nat.one_pos, hp.2, rfl⟩
    | connected | running => exact absurd hz (Nat.pos_iff_ne_zero.mp hp.1)
  | shared hc hn hd =>
    exact ⟨[], logs_withConnection s _, fun p hp => ⟨p, .nil, hp.shared hc hn hd⟩⟩
  | @stated sql params hsql =>
    cases hc : s.connection.client with
    | none =>
      rw [statement, hc]
      exact .refl s
    | some client =>
      refine ⟨_, logs_statement hc sql params, fun p hp => ⟨p, ?_, ?_⟩⟩
      · exact .sent .nil fun he => hsql he he
      · rwa [statement_connection]
  | started hcount hz =>
    refine ⟨[.told .startedTransaction], (logs_withConnection s _).trans (logs_publish _ rfl),
      fun p hp => ?_⟩
    cases p with
    | apart => exact absurd hp.1 (Nat.pos_iff_ne_zero.mp hcount)
    | connected => exact ⟨.running, .started .nil, hcount, Nat.one_pos, hp.2.2⟩
    | running => exact absurd hz (Nat.pos_iff_ne_zero.mp hp.2.1)
  | ended error hdepth hsql => exact passes_ended error hdepth hsql
  | disconnected hcount hz =>
    refine ⟨[.told .disconnected], logs_disconnect s, fun p hp => ?_⟩
    cases p with
    | apart => exact absurd hp.1 (Nat.pos_iff_ne_zero.mp hcount)
    | connected =>
      exact ⟨.apart, .disconnected .nil, by simp [disconnect_connection, Phase.Fits, hz]⟩
    | running => exact absurd hz (Nat.pos_iff_ne_zero.mp hp.2.1)

theorem passes_on {o : Operation} (ho : o.Admitted (CallersCommit commits)) (s : Scope σ) :
    s.Passes commits (o.on s) :=
  on_invariant (P := s.Passes commits) (fun _ _ hb h => h.trans hb.passes) ho (.refl s)

omit [Link σ] in
/-- Nothing that the phases depend on has changed. -/
theorem Passes.of_eq {s t : Scope σ} (number : t.session.number = s.session.number)
    (connection : t.connection = s.connection)
    (told : t.session.lifecycle = s.session.lifecycle)
    (sent : t.wire.statements s.session.number = s.wire.statements s.session.number) :
    s.Passes commits t :=
  ⟨[], ⟨number, by simpa using told, by simpa using sent⟩,
    fun p hp => ⟨p, .nil, connection.symm ▸ hp⟩⟩

end Scope

namespace World
variable {σ : Type}

def Numbered (w : World σ) : Prop := ∀ n, (w.session n).number = n

theorem lifecycle_publish (w : World σ) (n m : Nat) {e : Event} (h : e.isAnnouncement = true) :
    ((w.publish m e).session n).lifecycle = (w.session n).lifecycle := by
  rw [publish, session_putSession]
  split_ifs with hm
  · simp [Session.lifecycle, Session.publish, h, hm]
  · rfl

variable [Link σ] {commits : Prop}

theorem Numbered.perform {w : World σ} (h : w.Numbered) (n : Nat) (o : Operation) :
    (w.perform n o).Numbered := fun m =>
  (perform_same (Scope.leads_on o (w.scope n)).number m).trans (h m)

/-- The turn of another session is no statement of this one. -/
theorem statements_perform_ne {w : World σ} (h : w.Numbered) {n m : Nat} (hm : m ≠ n)
    (o : Operation) : (w.perform m o).wire.statements n = w.wire.statements n := by
  obtain ⟨more, hc, hmakes⟩ := (Scope.leads_on o (w.scope m)).calls
  refine Wire.statements_eq_of_calls hc fun x hx => ?_
  have own := (hmakes x hx).1
  cases x with
  | query session client sql params accepted =>
    have hs : session = m := (own session rfl).trans (h m)
    simp [Call.statement?, hs, hm]
  | connect | release | finish | pause => rfl

theorem Step.passes {f : World σ → World σ} (hf : Step (CallersCommit commits) f) {w : World σ}
    (h : w.Numbered) (n : Nat) :
    (f w).Numbered ∧ (w.scope n).Passes commits ((f w).scope n) := by
  cases hf with
  | @operation m o ho =>
    refine ⟨h.perform m o, ?_⟩
    by_cases hm : m = n
    · subst hm
      rw [perform_scope]
      exact Scope.passes_on ho _
    · have same := perform_session_ne w hm o
      refine Scope.Passes.of_eq (by simp [same]) (by simp [Scope.connection, same])
        (by simp [same]) ?_
      rw [scope_session, h n]
      exact statements_perform_ne h hm o
  | @announcement m e he =>
    have quiet := w.publish_aside m e
    refine ⟨fun k => (quiet.number k).trans (h k), ?_⟩
    exact .of_eq (quiet.number n) (quiet.connection n) (w.lifecycle_publish n m he) rfl
  | unseen hu =>
    have quiet := hu w
    refine ⟨fun k => (quiet.number k).trans (h k), ?_⟩
    refine .of_eq (quiet.number n) (quiet.connection n) ?_ (by simp [quiet.wire])
    simp [Session.lifecycle, quiet.events n]

end World

namespace Crowd
variable {σ α : Type}

/-- What session `n` tells and sends in each move of the tasks, one after the other. -/
inductive Logs (n : Nat) : Crowd (World σ) α → List Nat → List Happening → Prop
  | nil (c : Crowd (World σ) α) : Logs n c [] []
  | cons {c : Crowd (World σ) α} {i : Nat} {rest : List Nat} {log later : List Happening} :
    (c.world.scope n).Logs ((c.move i).world.scope n) log → Logs n (c.move i) rest later →
      Logs n c (i :: rest) (log ++ later)

theorem Logs.whole {n : Nat} {c : Crowd (World σ) α} {schedule : List Nat}
    {log : List Happening} (h : c.Logs n schedule log) :
    (c.world.scope n).Logs ((c.follow schedule).world.scope n) log := by
  induction h with
  | nil c => exact .refl _
  | cons h _ ih => exact h.trans ih

variable [Link σ] {commits : Prop}

/-- However the tasks take turns, a session passes from phase to phase. -/
theorem passes {c : Crowd (World σ) α}
    (tasks : ∀ t ∈ c.tasks, t.Only (World.Step (CallersCommit commits)))
    (numbered : c.world.Numbered) (n : Nat) (schedule : List Nat) {p : Phase}
    (fits : p.Fits (c.world.session n).connection) :
    ∃ log q, c.Logs n schedule log ∧ p.Passes commits log q ∧
      q.Fits ((c.follow schedule).world.session n).connection := by
  induction schedule generalizing c p with
  | nil => exact ⟨[], p, .nil c, .nil, fits⟩
  | cons i rest ih =>
    obtain ⟨hw, htasks⟩ := move_only tasks i
    have step : (c.move i).world.Numbered ∧
        (c.world.scope n).Passes commits ((c.move i).world.scope n) := by
      rcases hw with hw | ⟨f, hf, hw⟩ <;> rw [hw]
      · exact ⟨numbered, .refl _⟩
      · exact hf.passes numbered n
    obtain ⟨hnumbered, log, hlog, hp⟩ := step
    obtain ⟨q, hpq, hq⟩ := hp p fits
    obtain ⟨later, r, hlater, hqr, hr⟩ := ih htasks hnumbered hq
    exact ⟨log ++ later, r, .cons hlog hlater, hpq.trans hqr, hr⟩

end Crowd

/-- No session has been used yet, nor told or sent anything. -/
structure World.Pristine {σ : Type} (w : World σ) : Prop extends w.Fresh where
  history : ∀ n, (w.session n).history = []
  events : ∀ n, (w.session n).events = []

/-- However the tasks of any number of users take turns, and whatever the link refuses: what a
session tells goes on to whole connections with whole transactions in them, of which one is open
exactly while there are users, and one exactly while there are transactions. A transaction is
told to be committed exactly if the statement that ends it is a COMMIT that the link accepts; no
other COMMIT is sent for it unless callers do so themselves. -/
theorem lifecycle_bracketed {σ α : Type} [Link σ] {w : World σ} (pristine : w.Pristine)
    {commits : Prop} {tasks : List (Act (World σ) α)} (active : ∀ t ∈ tasks, Activity commits t)
    (schedule : List Nat) (n : Nat) :
    let crowd := Crowd.start w tasks
    let s := (crowd.follow schedule).world.session n
    (∃ rest, s.stages ++ rest ∈ Stage.connections) ∧
      s.stages.count .connected =
        s.stages.count .disconnected + (if 0 < s.connection.count then 1 else 0) ∧
      s.stages.count .started =
        s.stages.count .ended + (if 0 < s.connection.depth then 1 else 0) ∧
      ∃ log, crowd.Logs n schedule log ∧
        s.lifecycle = log.filterMap Happening.told? ∧
        (crowd.follow schedule).world.wire.statements n = log.filterMap Happening.sent? ∧
        ∀ before error committed after,
          log = before ++ .told (.endedTransaction error committed) :: after →
            Phase.Concluded commits before committed := by
  intro crowd s
  have fits : Phase.apart.Fits (crowd.world.session n).connection := by
    simp [crowd, Crowd.start, Phase.Fits, pristine.connection n]
  obtain ⟨log, p, hlog, hp, hfit⟩ :=
    Crowd.passes (Activity.start_moves active) pristine.number n schedule fits
  have told : s.lifecycle = log.filterMap Happening.told? := by
    have none : (w.session n).lifecycle = [] := by simp [Session.lifecycle, pristine.events n]
    exact hlog.whole.told.trans (by simp [Crowd.start, none])
  have sent : (crowd.follow schedule).world.wire.statements n =
      log.filterMap Happening.sent? := by
    have none : w.wire.statements n = [] := by simp [Wire.statements, pristine.calls]
    have whole := hlog.whole.sent
    simp only [World.scope_session, World.scope_wire, Crowd.start, pristine.number n,
      none, List.nil_append] at whole
    exact whole
  have stages : s.stages = Happening.stages log := by
    rw [Session.stages_eq, told, Happening.stages]
  have counts := hp.count
  simp only [hfit.ne_apart_iff, hfit.running_iff, ← stages] at counts
  exact ⟨⟨p.closing, stages ▸ Phase.append_closing_mem hp.word⟩, counts.1, counts.2, log, hlog,
    told, sent, fun before error committed after hl => hp.concluded hl⟩

/-- The link refuses a COMMIT, while another user is about to use the connection. -/
theorem lifecycle_bracketed_refused_commit :
    let w : World Script := { wire := { link := { failures := [{ fragment := "COMMIT" }] } } }
    let tasks : List (Act (World Script) (List Record)) :=
      [Session.transaction 1 (Session.statement 1 "DELETE FROM t" []),
        Session.retained 1 (Session.statement 1 "SELECT 1" [])]
    let schedule := List.replicate 12 0 ++ List.replicate 4 1
    w.Pristine ∧ (∀ t ∈ tasks, Activity False t) ∧
      let crowd := Crowd.start w tasks
      let s := (crowd.follow schedule).world.session 1
      s.lifecycle = [.connected, .startedTransaction, .endedTransaction none false,
          .disconnected, .connected] ∧
        (∃ rest, s.stages ++ rest ∈ Stage.connections) ∧
        s.stages.count .connected =
          s.stages.count .disconnected + (if 0 < s.connection.count then 1 else 0) ∧
        ∃ log, crowd.Logs 1 schedule log ∧ s.lifecycle = log.filterMap Happening.told? ∧
          ∀ before error committed after,
            log = before ++ .told (.endedTransaction error committed) :: after →
              Phase.Concluded False before committed := by
  intro w tasks schedule
  have pristine : w.Pristine := ⟨⟨rfl, fun _ => rfl, fun _ => rfl⟩, fun _ => rfl, fun _ => rfl⟩
  have active : ∀ t ∈ tasks, Activity False t := by
    simp only [tasks, List.forall_mem_cons]
    exact ⟨.transaction 1 (.statement 1 [] (.of_not_own (by decide))),
      .retained 1 (.statement 1 [] (.of_not_own (by decide))), by simp⟩
  obtain ⟨prefixed, connected, -, log, hlog, told, -, concluded⟩ :=
    lifecycle_bracketed pristine active schedule 1
  exact ⟨pristine, active, by decide, prefixed, connected, log, hlog, told, concluded⟩

end DataAccess
