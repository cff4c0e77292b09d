import DataAccess.Proofs.Session.Announcements
import DataAccess.Proofs.Session.Lifecycle

/-!
What sessions remember of the statements that they have sent, against the record of what the link
was asked on which connection, and how it answered.
-/
namespace DataAccess

namespace Call

def opener? : Call → Option Nat
  | .connect session true => some session
  | _ => none

theorem opener?_failedTries (session : Nat) (delay : Duration) (n : Nat) :
    (failedTries session delay n).filterMap opener? = [] := by
  rw [List.filterMap_eq_nil_iff]
  intro x hx
  rcases mem_failedTries hx with rfl | rfl <;> rfl

def statementOn? (owner? : Nat → Option Nat) (n : Nat) : Call → Option Statement
  | .query _ client sql params accepted =>
    if owner? client = some n then some ⟨sql, params, accepted⟩ else none
  | _ => none

/-- The link after a call, provided that it answers as the call says. -/
def replay? {σ : Type} [Link σ] (address : Nat → Option Address) (link : σ) : Call → Option σ
  | .connect session accepted =>
    let (answer, link) := Link.connect link (address session)
    if answer.isOk = accepted then some link else none
  | .query _ client sql params accepted =>
    let (answer, link) := Link.query link client sql params
    if answer.isOk = accepted then some link else none
  | .release _ client => some (Link.release link client)
  | .finish address => some (Link.finish link address).2
  | .pause _ => some link

end Call

namespace Wire
variable {σ : Type} {w v : Wire σ}

def openers (w : Wire σ) : List Nat := w.calls.filterMap Call.opener?

def owner? (w : Wire σ) : Nat → Option Nat
  | 0 => none
  | k + 1 => w.openers[k]?

/-- The statements that the link was sent on connections of session `n`, first to last. -/
def sentOn (w : Wire σ) (n : Nat) : List Statement :=
  w.calls.filterMap (Call.statementOn? w.owner? n)

theorem length_openers (w : Wire σ) : w.openers.length = w.opened := by
  have opens : ∀ x : Call, x.opener?.isSome = x.opens := by
    intro x
    cases x with
    | connect session accepted => cases accepted <;> rfl
    | query | release | finish | pause => rfl
  simp only [openers, opened, List.length_filterMap_eq_countP, opens]

/-- A connection stays with the session that it was opened for. -/
theorem owner?_of_calls {more : List Call} (h : v.calls = w.calls ++ more) {client n : Nat}
    (ho : w.owner? client = some n) : v.owner? client = some n := by
  cases client with
  | zero => contradiction
  | succ k =>
    have hk : w.openers[k]? = some n := ho
    have hlt := (List.getElem?_eq_some_iff.mp hk).1
    rw [owner?, openers, h, List.filterMap_append]
    exact (List.getElem?_append_left hlt).trans hk

/-- What the link answered from one record to another is what the calls say. -/
def Replays [Link σ] (address : Nat → Option Address) (w v : Wire σ) : Prop :=
  ∃ more, v.calls = w.calls ++ more ∧ more.foldlM (Call.replay? address) w.link = some v.link

section
variable [Link σ] {address : Nat → Option Address} {u : Wire σ}

theorem Replays.refl (w : Wire σ) : w.Replays address w :=
  ⟨[], (List.append_nil _).symm, rfl⟩

theorem Replays.trans (h : w.Replays address v) (k : v.Replays address u) :
    w.Replays address u := by
  obtain ⟨more, hc, hr⟩ := h
  obtain ⟨later, hl, hs⟩ := k
  refine ⟨more ++ later, by rw [hl, hc, List.append_assoc], ?_⟩
  rw [List.foldlM_append, hr]
  exact hs

theorem replays_of_call {x : Call} (hc : v.calls = w.calls ++ [x])
    (hr : x.replay? address w.link = some v.link) : w.Replays address v :=
  ⟨[x], hc, by rw [List.foldlM_cons, hr]; rfl⟩

end
end Wire

namespace Scope
variable {σ : Type} [Link σ] {address : Nat → Option Address}

def At (address : Nat → Option Address) (s : Scope σ) : Prop :=
  address s.session.number = s.session.database.address

theorem replays_tryConnect {s : Scope σ} (h : s.At address) :
    s.wire.Replays address s.tryConnect.2.wire := by
  refine Wire.replays_of_call (x := .connect s.session.number _) rfl ?_
  simp only [Call.replay?, show address s.session.number = _ from h]
  exact if_pos rfl

theorem replays_dialUpTo {s : Scope σ} (h : s.At address) (more : Nat) :
    s.wire.Replays address (s.dialUpTo more).2.wire := by
  induction more generalizing s with
  | zero =>
    have first := replays_tryConnect h
    rw [dialUpTo]
    split <;> simpa only [*] using first
  | succ more ih =>
    have first := replays_tryConnect h
    rw [dialUpTo]
    split
    next client t ht => simpa only [ht] using first
    next e t ht =>
      have hs : t.session = s.session := by rw [← show s.tryConnect.2 = t by rw [ht]]; rfl
      have paused : t.wire.Replays address t.pause.wire := Wire.replays_of_call rfl rfl
      have again := ih (s := t.pause) (show t.At address by rw [At, hs]; exact h)
      rw [ht] at first
      exact (first.trans paused).trans again

theorem replays_statement (s : Scope σ) (sql : String) (params : List Json) :
    s.wire.Replays address (s.statement sql params).2.wire := by
  unfold statement
  split
  · exact .refl _
  · exact Wire.replays_of_call rfl (if_pos rfl)

theorem replays_disconnect (s : Scope σ) : s.wire.Replays address s.disconnect.wire := by
  unfold disconnect
  split
  · exact Wire.replays_of_call rfl rfl
  · exact .refl _

variable {admits : String → Prop}

/-- Every answer that is on record is the link's own. -/
theorem Beat.replays {s t : Scope σ} (h : Beat admits s t) (hs : s.At address) :
    s.wire.Replays address t.wire := by
  cases h with
  | undialed hd =>
    have dialed : s.wire.Replays address s.dial.2.wire := replays_dialUpTo hs _
    rwa [hd] at dialed
  | dialed hz hd =>
    have dialed : s.wire.Replays address s.dial.2.wire := replays_dialUpTo hs _
    rwa [hd] at dialed
  | shared | started => exact .refl _
  | stated params _ => exact replays_statement s _ params
  | ended error _ _ => exact replays_statement (s.withDepth 0) _ []
  | disconnected => exact replays_disconnect s

/-- The session remembers what it has sent. It sends on a connection of its own, as all do. -/
structure Recorded (s : Scope σ) : Prop where
  own : ∀ c, s.connection.client = some c → s.wire.owner? c = some s.session.number
  queries : ∀ session client sql params accepted,
    .query session client sql params accepted ∈ s.wire.calls → s.wire.owner? client = some session
  history : s.session.history = s.wire.statements s.session.number

section
omit [Link σ]

theorem Recorded.of_calls {s t : Scope σ} (h : s.Recorded) {more : List Call}
    (number : t.session.number = s.session.number) (calls : t.wire.calls = s.wire.calls ++ more)
    (own : ∀ c, t.connection.client = some c →
      s.connection.client = some c ∨ t.wire.owner? c = some s.session.number)
    (queries : ∀ session client sql params accepted,
      .query session client sql params accepted ∈ more →
        session = s.session.number ∧ s.connection.client = some client)
    (history : t.session.history =
      s.session.history ++ more.filterMap (Call.statement? s.session.number)) : t.Recorded := by
  have later {c : Nat} (hc : s.connection.client = some c) :
      t.wire.owner? c = some s.session.number :=
    Wire.owner?_of_calls calls (h.own c hc)
  refine ⟨fun c hc => ?_, fun session client sql params accepted hx => ?_, ?_⟩
  · rw [number]
    exact (own c hc).elim later id
  · rw [calls, List.mem_append] at hx
    rcases hx with hx | hx
    · exact Wire.owner?_of_calls calls (h.queries session client sql params accepted hx)
    · obtain ⟨rfl, hc⟩ := queries session client sql params accepted hx
      exact later hc
  · rw [number, Wire.statements_of_calls calls, ← h.history, history]

/-- What is not about statements changes nothing of what is remembered. -/
theorem Recorded.of_quiet {s t : Scope σ} (h : s.Recorded) {more : List Call}
    (number : t.session.number = s.session.number) (history : t.session.history = s.session.history)
    (own : ∀ c, t.connection.client = some c →
      s.connection.client = some c ∨ t.wire.owner? c = some s.session.number)
    (calls : t.wire.calls = s.wire.calls ++ more)
    (quiet : ∀ x ∈ more, x.isQuery = false) : t.Recorded := by
  refine h.of_calls number calls own (fun session client sql params accepted hx => ?_) ?_
  · exact absurd (quiet _ hx) (by simp [Call.isQuery])
  · have none : more.filterMap (Call.statement? s.session.number) = [] := by
      rw [List.filterMap_eq_nil_iff]
      intro x hx
      have hq := quiet x hx
      cases x <;> simp_all [Call.isQuery, Call.statement?]
    rw [none, history, List.append_nil]

theorem isQuery_tries (session : Nat) (delay : Duration) (k : Nat) (accepted : Bool) :
    ∀ x ∈ Call.failedTries session delay k ++ [.connect session accepted], x.isQuery = false :=
  Call.forall_tries (P := fun x => x.isQuery = false) (fun _ => rfl) rfl k accepted

/-- A new connection is the session's own. -/
theorem owner?_dialed {s t : Scope σ} {delay : Duration} {k : Nat}
    (calls : t.wire.calls = s.wire.calls ++ (Call.failedTries s.session.number delay k ++
      [.connect s.session.number true])) :
    t.wire.owner? (s.wire.opened + 1) = some s.session.number := by
  have openers : t.wire.openers = s.wire.openers ++ [s.session.number] := by
    rw [Wire.openers, calls, List.filterMap_append, List.filterMap_append,
      Call.opener?_failedTries]
    rfl
  rw [Wire.owner?, openers, ← Wire.length_openers]
  simp

end

theorem Recorded.statement {s : Scope σ} (h : s.Recorded) (sql : String) (params : List Json) :
    (s.statement sql params).2.Recorded := by
  rcases statement_cases s sql params with ⟨-, hs⟩ | ⟨client, answer, t, hc, hs, ht, hw⟩ <;> rw [hs]
  · exact h
  · refine h.of_calls (by rw [ht]; rfl) hw (fun c hcl => .inl ?_) ?_ ?_
    · rwa [connection, ht] at hcl
    · intro session c q ps accepted hx
      cases List.mem_singleton.mp hx
      exact ⟨rfl, hc⟩
    · simp [ht, Session.record, Call.statement?]

theorem Recorded.disconnect {s : Scope σ} (h : s.Recorded) : s.disconnect.Recorded := by
  have gone (c : Nat) : s.disconnect.connection.client ≠ some c := by
    rw [disconnect_connection]
    exact nofun
  unfold Scope.disconnect at gone ⊢
  split at gone
  next client hc =>
    have calls : (s.answered (Link.release s.wire.link client)
        (.release s.session.number client)).wire.calls =
          s.wire.calls ++ [.release s.session.number client] := rfl
    exact h.of_quiet rfl rfl (fun c hcl => absurd hcl (gone c)) calls (by simp [Call.isQuery])
  next =>
    exact h.of_quiet rfl rfl (fun c hcl => absurd hcl (gone c)) (List.append_nil _).symm (by simp)

theorem Beat.recorded {s t : Scope σ} (h : Beat admits s t) (hs : s.Recorded) : t.Recorded := by
  cases h with
  | undialed hd =>
    obtain ⟨ht, k, hc⟩ := dial_error hd
    exact hs.of_quiet (by rw [ht]) (by rw [ht]) (fun c h => .inl (by rwa [connection, ht] at h))
      hc (isQuery_tries _ _ _ _)
  | @dialed t client hz hd =>
    obtain ⟨rfl, ht, k, hc⟩ := dial_ok hd
    have history : t.session.history = s.session.history := by rw [ht]
    refine hs.of_quiet (by simp [ht]) history (fun c h => .inr ?_) hc (isQuery_tries _ _ _ _)
    cases h
    exact owner?_dialed hc
  | shared hc =>
    exact hs.of_quiet rfl rfl (fun c h => .inl (hc ▸ h)) (List.append_nil _).symm (by simp)
  | stated params _ => exact hs.statement _ params
  | started =>
    exact hs.of_quiet rfl rfl (fun c h => .inl h) (List.append_nil _).symm (by simp)
  | ended error _ _ =>
    have inner : (s.withDepth 0).Recorded :=
      hs.of_quiet rfl rfl (fun c h => .inl h) (List.append_nil _).symm (by simp)
    exact (inner.statement _ []).of_quiet rfl rfl (fun c h => .inl h) (List.append_nil _).symm
      (by simp)
  | disconnected => exact hs.disconnect

end Scope

namespace World
variable {σ : Type}

/-- All sessions remember what they have sent. -/
structure Recorded (w : World σ) : Prop where
  numbered : w.Numbered
  scope : ∀ n, (w.scope n).Recorded

theorem Recorded.of_unseen {w v : World σ} (h : w.Recorded) (aside : w.Aside v)
    (history : ∀ n, (v.session n).history = (w.session n).history) : v.Recorded := by
  have calls : v.wire.calls = w.wire.calls ++ [] := by rw [aside.wire, List.append_nil]
  refine ⟨fun n => (aside.number n).trans (h.numbered n), fun n => ?_⟩
  refine (h.scope n).of_quiet (aside.number n) (history n) (fun c hc => .inl ?_) calls (by simp)
  rwa [Scope.connection, scope_session, aside.connection n] at hc

theorem history_publish (w : World σ) (n m : Nat) (e : Event) :
    ((w.publish m e).session n).history = (w.session n).history := by
  rw [publish, session_putSession]
  split_ifs with hm
  · rw [← hm]
    rfl
  · rfl

/-- When session `n` has sent its statements on connections of its own, and only it, they are the
statements sent on connections of its own. -/
theorem Recorded.sentOn_eq {w : World σ} (h : w.Recorded) (n : Nat) :
    w.wire.sentOn n = (w.session n).history := by
  have history := (h.scope n).history
  rw [scope_session, h.numbered n] at history
  rw [history, scope_wire, Wire.sentOn, Wire.statements]
  refine List.filterMap_congr fun x hx => ?_
  cases x with
  | query session client sql params accepted =>
    have owner := (h.scope n).queries session client sql params accepted hx
    rw [scope_wire] at owner
    simp [Call.statementOn?, Call.statement?, owner]
  | connect | release | finish | pause => rfl

variable [Link σ]

theorem Recorded.perform {w : World σ} (h : w.Recorded) (n : Nat) (o : Operation) :
    (w.perform n o).Recorded := by
  have own : (o.on (w.scope n)).Recorded :=
    Scope.on_invariant (fun _ _ hb hs => hb.recorded hs) o.admitted_all (h.scope n)
  obtain ⟨more, calls, -⟩ := (Scope.leads_on o (w.scope n)).calls
  refine ⟨h.numbered.perform n o, fun m => ?_⟩
  by_cases hm : n = m
  · subst hm
    rwa [perform_scope]
  · have same := perform_session_ne w hm o
    have other := h.scope m
    refine ⟨fun c hc => ?_, own.queries, ?_⟩
    · rw [Scope.connection, scope_session, same] at hc
      rw [scope_session, same]
      exact Wire.owner?_of_calls calls (other.own c hc)
    · have history := other.history
      rw [scope_session, h.numbered m] at history
      rw [scope_session, same, h.numbered m, history]
      exact (statements_perform_ne h.numbered hm o).symm

/-- Every answer that is on record since `w` is the link's own. -/
structure Replays (w v : World σ) : Prop where
  wire : w.wire.Replays (fun n => (w.session n).database.address) v.wire
  database : ∀ n, (v.session n).database = (w.session n).database

theorem Replays.perform {w v : World σ} (h : w.Replays v) (hv : v.Numbered) (n : Nat)
    (o : Operation) : w.Replays (v.perform n o) := by
  let address (n : Nat) := (w.session n).database.address
  have at_start : (v.scope n).At address := by
    show address (v.session n).number = _
    rw [hv n, scope_session, h.database n]
  have turn : (o.on (v.scope n)).At address ∧
      v.wire.Replays address (o.on (v.scope n)).wire := by
    refine Scope.on_invariant (P := fun s => s.At address ∧ v.wire.Replays address s.wire) ?_
      o.admitted_all ⟨at_start, .refl _⟩
    intro s t hb ⟨hs, hr⟩
    refine ⟨?_, hr.trans (hb.replays hs)⟩
    rw [Scope.At, hb.leads.number, hb.leads.database]
    exact hs
  exact ⟨h.wire.trans turn.2, fun m => (v.perform_database n o m).trans (h.database m)⟩

theorem Replays.aside {u v w : World σ} (h : w.Replays v) (a : v.Aside u) : w.Replays u :=
  ⟨a.wire ▸ h.wire, fun n => (a.database n).trans (h.database n)⟩

theorem Step.recorded {admits : String → Prop} {f : World σ → World σ} (hf : Step admits f)
    {w v : World σ} (h : v.Recorded) (k : w.Replays v) : (f v).Recorded ∧ w.Replays (f v) := by
  cases hf with
  | operation n _ => exact ⟨h.perform n _, k.perform h.numbered n _⟩
  | @announcement n e _ =>
    have aside := v.publish_aside n e
    exact ⟨h.of_unseen aside fun m => v.history_publish m n e, k.aside aside⟩
  | unseen hu => exact ⟨h.of_unseen (hu v).toAside (hu v).history, k.aside (hu v).toAside⟩

end World
/-- However the tasks of any number of users take turns, and whatever the link refuses: a session
remembers just the statements that were sent on its own connections, in order and with the answers
that the link has given, and each statement was sent on a connection of one session. A statement
that finds a connection for itself is announced once and told of once. -/
theorem history_exact {σ α : Type} [Link σ] {w : World σ} (pristine : w.Pristine) {commits : Prop}
    {tasks : List (Act (World σ) α)} (active : ∀ t ∈ tasks, Activity commits t)
    (schedule : List Nat) :
    let crowd := (Crowd.start w tasks).follow schedule
    let now := crowd.world
    (∀ n, (now.session n).history = now.wire.sentOn n) ∧
      (∀ session client sql params accepted,
        .query session client sql params accepted ∈ now.wire.calls →
          ∃! n, now.wire.owner? client = some n) ∧
      now.wire.calls.foldlM (Call.replay? fun n => (w.session n).database.address) w.wire.link =
        some now.wire.link ∧
      ∀ n sql params options i next,
        crowd.tasks[i]? = some ((Session.execWith n sql params options).run.bind next) →
          ∀ m later, crowd.Shows (World.announced m) i next
            (if n = m then [.preQuery sql params, .query sql params] else []) later := by
  intro crowd now
  have start : w.Recorded := by
    refine ⟨pristine.number, fun n => ⟨fun c hc => ?_, fun _ _ _ _ _ hx => ?_, ?_⟩⟩
    · simp [Scope.connection, pristine.connection n] at hc
    · simp [pristine.calls] at hx
    · simp [pristine.history n, Wire.statements, pristine.calls]
  obtain ⟨recorded, replayed⟩ : now.Recorded ∧ w.Replays now :=
    Activity.invariant (P := fun v => v.Recorded ∧ w.Replays v)
      (fun _ hf _ hv => hf.recorded hv.1 hv.2) ⟨start, .refl _, fun _ => rfl⟩ active schedule
  refine ⟨fun n => (recorded.sentOn_eq n).symm, ?_, ?_, ?_⟩
  · intro session client sql params accepted hx
    have owner := (recorded.scope session).queries session client sql params accepted hx
    exact ⟨session, owner, fun n hn => Option.some.inj (hn.symm.trans owner)⟩
  · obtain ⟨more, calls, replay⟩ := replayed.wire
    rw [pristine.calls, List.nil_append] at calls
    rwa [calls]
  · intro n sql params options i next ht m later
    exact Crowd.shows_of_emits (World.announced_self · m)
      (Session.emits_execWith n m sql params options) ht later

/-- Two sessions share a link that refuses the statement of one of them. -/
theorem history_exact_two_sessions :
    let w : World Script := { wire := { link := { failures := [{ fragment := "DELETE" }] } } }
    let tasks : List (Act (World Script) (List Record)) :=
      [Session.exec 1 "DELETE FROM t" [], Session.exec 2 "SELECT 1" []]
    let schedule := (List.replicate 9 [0, 1]).flatten
    w.Pristine ∧ (∀ t ∈ tasks, Activity False t) ∧
      let now := ((Crowd.start w tasks).follow schedule).world
      (now.session 1).history = [⟨"DELETE FROM t", [], false⟩] ∧
        (now.session 2).history = [⟨"SELECT 1", [], true⟩] ∧
        (∀ n, (now.session n).history = now.wire.sentOn n) ∧
        now.wire.calls.foldlM (Call.replay? fun _ => none) w.wire.link = some now.wire.link ∧
        ∃ next : Except Error Output → Routine (World Script) (Except Error (List Record)),
          (Crowd.start w tasks).Shows (World.announced 1) 0 next
            [.preQuery "DELETE FROM t" [], .query "DELETE FROM t" []] schedule := by
  intro w tasks schedule
  have exec (n : Nat) {sql : String} (h : isOwn sql = false) :
      Activity (σ := Script) False (Session.exec n sql []) :=
    .bind (.execWith n [] {} (.of_not_own h)) fun _ => .ofExcept _
  have pristine : w.Pristine := ⟨⟨rfl, fun _ => rfl, fun _ => rfl⟩, fun _ => rfl, fun _ => rfl⟩
  have active : ∀ t ∈ tasks, Activity False t := by
    simp only [tasks, List.forall_mem_cons]
    exact ⟨exec 1 (by decide), exec 2 (by decide), by simp⟩
  obtain ⟨history, -, replay, -⟩ := history_exact pristine active schedule
  obtain ⟨-, -, -, announced⟩ := history_exact pristine active []
  exact ⟨pristine, active, by decide, by decide, history, replay, _,
    announced 1 "DELETE FROM t" [] {} 0 _ rfl 1 schedule⟩

end DataAccess
