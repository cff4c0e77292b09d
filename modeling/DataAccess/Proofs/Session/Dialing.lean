import DataAccess.Link.Scripted
import DataAccess.Proofs.Session.Execution
import DataAccess.Proofs.Session.Phase

/-!
Opening a connection. A session whose connection nobody uses tries to connect until a try is
accepted or none is left, and pauses between two tries. Whatever it wanted the connection for goes
on from there, or fails and leaves the session as it was.
-/
namespace DataAccess

namespace Link
variable {σ : Type} [Link σ]

def afterTries (address : Option Address) : Nat → σ → σ
  | 0, l => l
  | k + 1, l => afterTries address k (Link.connect l address).2

/-- How the link answers the next try after `k` others. -/
def answerAfter (address : Option Address) (k : Nat) (l : σ) : Except Error Unit :=
  (Link.connect (afterTries address k l) address).1

/-- The link refuses `k` tries to connect, and answers the next one like this. -/
structure Answers (address : Option Address) (l : σ) (k : Nat) (answer : Except Error Unit) :
    Prop where
  refused : ∀ i < k, (answerAfter address i l).isOk = false
  last : answerAfter address k l = answer

variable {address : Option Address} {l : σ}

/-- The tries after the first one. -/
theorem Answers.next {k : Nat} {answer : Except Error Unit}
    (h : Answers address l (k + 1) answer) :
    Answers address (Link.connect l address).2 k answer :=
  ⟨fun i hi => h.refused (i + 1) (Nat.succ_lt_succ hi), h.last⟩

theorem Answers.first {k : Nat} {answer : Except Error Unit}
    (h : Answers address l (k + 1) answer) : ∃ e, (Link.connect l address).1 = .error e := by
  have refused := h.refused 0 (Nat.succ_pos k)
  cases ha : (Link.connect l address).1 with
  | error e => exact ⟨e, rfl⟩
  | ok _ =>
    rw [answerAfter, afterTries, ha] at refused
    contradiction

/-- Of so many tries one is the first to be accepted, or all are refused. -/
theorem answers_cases (address : Option Address) (l : σ) (more : Nat) :
    (∃ k ≤ more, Answers address l k (.ok ())) ∨ ∃ e, Answers address l more (.error e) := by
  induction more with
  | zero =>
    have none : ∀ i < 0, (answerAfter address i l).isOk = false := nofun
    cases ha : answerAfter address 0 l with
    | ok _ => exact .inl ⟨0, Nat.le_refl 0, none, ha⟩
    | error e => exact .inr ⟨e, none, ha⟩
  | succ more ih =>
    rcases ih with ⟨k, hk, accepted⟩ | ⟨e, refused⟩
    · exact .inl ⟨k, Nat.le_succ_of_le hk, accepted⟩
    have all : ∀ i < more + 1, (answerAfter address i l).isOk = false := by
      intro i hi
      rcases Nat.lt_succ_iff_lt_or_eq.mp hi with hi | rfl
      · exact refused.refused i hi
      · rw [refused.last]
        rfl
    cases ha : answerAfter address (more + 1) l with
    | ok _ => exact .inl ⟨more + 1, Nat.le_refl _, all, ha⟩
    | error f => exact .inr ⟨f, all, ha⟩

end Link

namespace Scope
variable {σ : Type} [Link σ]

def tried (s : Scope σ) (k : Nat) (accepted : Bool) : Scope σ :=
  { s with wire := {
      link := Link.afterTries s.session.database.address (k + 1) s.wire.link
      calls := s.wire.calls ++
        (Call.failedTries s.session.number s.session.config.retry.delay k ++
          [.connect s.session.number accepted]) } }

theorem opened_tried (s : Scope σ) (k : Nat) (accepted : Bool) :
    (s.tried k accepted).wire.opened = s.wire.opened + if accepted then 1 else 0 := by
  have quiet : (Call.failedTries s.session.number s.session.config.retry.delay k).countP
      Call.opens = 0 := Call.countP_failedTries rfl rfl k
  cases accepted <;> simp [tried, Wire.opened, quiet, Call.opens]

theorem tryConnect_ok {s : Scope σ}
    (h : (Link.connect s.wire.link s.session.database.address).1 = .ok ()) :
    s.tryConnect = (.ok (s.wire.opened + 1), s.tried 0 true) := by
  have opened := opened_tried s 0 true
  unfold tryConnect
  rcases hl : Link.connect s.wire.link s.session.database.address with ⟨answer, link⟩
  rw [hl] at h
  obtain rfl : answer = .ok () := h
  have same : s.answered link (.connect s.session.number true) = s.tried 0 true := by
    simp only [answered, tried, Link.afterTries, hl]
    rfl
  show (Except.ok (s.answered link (.connect s.session.number true)).wire.opened, _) = _
  rw [same, opened]
  exact congrArg _ same

theorem tryConnect_error {s : Scope σ} {e : Error}
    (h : (Link.connect s.wire.link s.session.database.address).1 = .error e) :
    s.tryConnect = (.error e, s.tried 0 false) := by
  unfold tryConnect
  rcases hl : Link.connect s.wire.link s.session.database.address with ⟨answer, link⟩
  rw [hl] at h
  obtain rfl : answer = .error e := h
  simp only [answered, tried, Link.afterTries, hl]
  rfl

/-- A refused try and the pause after it are the first of the tries. -/
theorem tried_pause (s : Scope σ) (k : Nat) (accepted : Bool) :
    (s.tried 0 false).pause.tried k accepted = s.tried (k + 1) accepted := by
  have none : Call.failedTries s.session.number s.session.config.retry.delay 0 = [] := rfl
  simp [tried, pause, Wire.pause, Link.afterTries, Call.failedTries_succ, none]

/-- The first try that is accepted is the last one. -/
theorem dialUpTo_accepted {s : Scope σ} {k more : Nat} (hk : k ≤ more)
    (h : Link.Answers s.session.database.address s.wire.link k (.ok ())) :
    s.dialUpTo more = (.ok (s.wire.opened + 1), s.tried k true) := by
  induction k generalizing s more with
  | zero =>
    have accepted := tryConnect_ok h.last
    cases more <;> rw [dialUpTo, accepted]
  | succ k ih =>
    obtain ⟨more, rfl⟩ := Nat.exists_eq_add_of_lt hk
    obtain ⟨e, he⟩ := h.first
    have later : (s.tried 0 false).pause.dialUpTo (k + more) = _ :=
      ih (Nat.le_add_right k more) h.next
    have opened : (s.tried 0 false).pause.wire.opened = s.wire.opened := by
      simp [pause, Wire.pause, tried, Wire.opened, Call.failedTries, Call.opens]
    rw [dialUpTo, tryConnect_error he]
    show (s.tried 0 false).pause.dialUpTo (k + more) = _
    rw [later, opened, tried_pause]

/-- Where every try is refused, the last refusal is told. -/
theorem dialUpTo_refused {s : Scope σ} {more : Nat} {e : Error}
    (h : Link.Answers s.session.database.address s.wire.link more (.error e)) :
    s.dialUpTo more =
      (.error (.connect s.session.config.retry.attempts (.error e)), s.tried more false) := by
  induction more generalizing s with
  | zero =>
    rw [dialUpTo, tryConnect_error h.last]
    rfl
  | succ more ih =>
    obtain ⟨f, hf⟩ := h.first
    have later : (s.tried 0 false).pause.dialUpTo more = _ := ih h.next
    rw [dialUpTo, tryConnect_error hf]
    show (s.tried 0 false).pause.dialUpTo more = _
    rw [later, tried_pause]
    rfl

theorem retain_accepted {s : Scope σ} (unused : s.connection.count = 0) {k : Nat}
    (hk : k < s.session.config.retry.attempts)
    (h : Link.Answers s.session.database.address s.wire.link k (.ok ())) :
    s.retain = (.ok (), ((s.tried k true).withConnection { s.connection with
      count := 1, client := some (s.wire.opened + 1) }).publish .connected) := by
  have dialed : s.dial = _ := dialUpTo_accepted (Nat.le_sub_one_of_lt hk) h
  rcases retain_cases s with ⟨used, -⟩ | ⟨-, ⟨t, ht, hr⟩ | ⟨e, t, ht, -⟩⟩
  · omega
  · rw [dialed] at ht
    cases ht
    exact hr
  · rw [dialed] at ht
    cases ht

theorem retain_refused {s : Scope σ} (unused : s.connection.count = 0) {e : Error}
    (h : Link.Answers s.session.database.address s.wire.link
      (s.session.config.retry.attempts - 1) (.error e)) :
    s.retain = (.error (.connect s.session.config.retry.attempts (.error e)),
      s.tried (s.session.config.retry.attempts - 1) false) := by
  have dialed : s.dial = _ := dialUpTo_refused h
  rcases retain_cases s with ⟨used, -⟩ | ⟨-, ⟨t, ht, -⟩ | ⟨f, t, ht, hr⟩⟩
  · omega
  · rw [dialed] at ht
    cases ht
  · rw [dialed] at ht
    cases ht
    exact hr

def deepen (s : Scope σ) : Except Error Unit × Scope σ :=
  if 0 < s.connection.depth then (.ok (), s.withDepth (s.connection.depth + 1)) else
  match s.openTransaction with
  | (.ok (), s) => (.ok (), (s.withDepth 1).publish .startedTransaction)
  | (.error e, s) => (.error e, s.release.2)

theorem begin_eq (s : Scope σ) : s.begin =
    match s.retain with
    | (.error e, s) => (.error e, s)
    | (.ok (), s) => s.deepen := rfl

end Scope

namespace World
variable {σ : Type} {α : Type}

/-- A turn depends on what it does with this session as it is. -/
theorem turn_congr {w : World σ} {n : Nat} {t u : Scope σ → α × Scope σ}
    (h : t (w.scope n) = u (w.scope n)) : w.turn n t = w.turn n u := by
  simp only [turn, scope] at *
  rw [h]

/-- Two turns of a session without anybody between them. -/
theorem turn_turn {β : Type} (w : World σ) (n : Nat) (first : Scope σ → α × Scope σ)
    (second : Scope σ → β × Scope σ) :
    (w.turn n first).2.turn n second = w.turn n fun s => second (first s).2 := by
  simp only [turn, putSession, Assoc.put_put]
  simp [session, Assoc.get?_put]

theorem session_publish (w : World σ) (n : Nat) (e : Event) :
    (w.publish n e).session n = (w.session n).publish e := by
  rw [publish, session_putSession, if_pos rfl]

theorem session_publish_ne (w : World σ) {n m : Nat} (h : n ≠ m) (e : Event) :
    (w.publish n e).session m = w.session m := by
  rw [publish, session_putSession, if_neg h]

end World

namespace Session
variable {σ α : Type} [Link σ]

def leaving (n : Nat) (task : Act (World σ) α) : Act (World σ) α := do
  let outcome ← task.outcome
  let closing ← (release n).outcome
  .ofExcept (settle outcome closing)

def ending (n : Nat) (task : Act (World σ) α) : Act (World σ) α := do
  let outcome ← task.outcome
  let closing ← (finish n (failure? outcome)).outcome
  .ofExcept (settle outcome closing)

def framedOnward (n : Nat) (transact : Bool) (sql : String) (params : List Json) :
    Act (World σ) (List Record) :=
  if transact then do
    turn n Scope.deepen
    ending n (statement n sql params)
  else leaving n (statement n sql params)

end Session

/-- What opens a connection where nobody uses one. -/
inductive Opening (σ : Type) : Type → Type 1 where
  | retain : Opening σ Unit
  | begin : Opening σ Unit
  | execWith (sql : String) (params : List Json) (options : ExecOptions) : Opening σ Output
  | retained {α : Type} (task : Act (World σ) α) : Opening σ α
  | transaction {α : Type} (task : Act (World σ) α) : Opening σ α

namespace Opening
variable {σ : Type} [Link σ] {α : Type}

def task (n : Nat) : {α : Type} → Opening σ α → Act (World σ) α
  | _, .retain => Session.retain n
  | _, .begin => Session.begin n
  | _, .execWith sql params options => Session.execWith n sql params options
  | _, .retained task => Session.retained n task
  | _, .transaction task => Session.transaction n task

def onward (n : Nat) : {α : Type} → Opening σ α → Act (World σ) α
  | _, .retain => pure ()
  | _, .begin => Session.turn n Scope.deepen
  | _, .execWith sql params options => do
    let session ← Session.look n
    let transact := options.transaction || session.config.alwaysTransact
    let outcome ← (Session.framedOnward n transact sql params).outcome
    Session.announce n (.query sql params)
    let rows ← .ofExcept outcome
    return .shape options.first (if options.raw then rows else rows.map session.converted)
  | _, .retained task => Session.leaving n task
  | _, .transaction task => do
    Session.turn n Scope.deepen
    Session.ending n task

end Opening

namespace World
variable {σ : Type} [Link σ]

def attempts (w : World σ) (n : Nat) : Nat := (w.session n).config.retry.attempts

/-- Session `n` would be refused `k` times, and the next try would be answered like this. -/
def Answers (w : World σ) (n k : Nat) (answer : Except Error Unit) : Prop :=
  Link.Answers (w.session n).database.address w.wire.link k answer

/-- From `w` to `v` session `n` has tried to connect `k` times in vain, with a pause after each try,
and then once more. Of the sessions nothing has changed but how this one is connected and what it
has told. -/
structure Dialed (n k : Nat) (accepted : Bool) (w v : World σ) : Prop where
  session : v.session n = { w.session n with
    connection := (v.session n).connection, events := (v.session n).events }
  others : ∀ m, m ≠ n → v.session m = w.session m
  link : v.wire.link =
    Link.afterTries (w.session n).database.address (k + 1) w.wire.link
  calls : v.wire.calls = w.wire.calls ++
    (Call.failedTries (w.session n).number (w.session n).config.retry.delay k ++
      [.connect (w.session n).number accepted])

/-- The last try was accepted. The session holds the new connection for its only user and has told
so. -/
structure Connected (n k : Nat) (w v : World σ) : Prop where
  dialed : w.Dialed n k true v
  connection : (v.session n).connection =
    { (w.session n).connection with count := 1, client := some v.wire.opened }
  lifecycle : (v.session n).lifecycle = (w.session n).lifecycle ++ [.connected]

/-- No try was accepted. The session is connected as before and has told nothing of its life. -/
structure Unconnected (n k : Nat) (w v : World σ) : Prop where
  dialed : w.Dialed n k false v
  connection : (v.session n).connection = (w.session n).connection
  lifecycle : (v.session n).lifecycle = (w.session n).lifecycle

/-- A round of tries, as the settings of session `n` have it. -/
structure Round {α : Type} (w : World σ) (n : Nat) (opening : Opening σ α) : Prop where
  /-- One of the tries is the first to be accepted, or the last one is refused like the others. -/
  decided : (∃ k < w.attempts n, w.Answers n k (.ok ())) ∨
    ∃ e, w.Answers n (w.attempts n - 1) (.error e)
  /-- The first try that is accepted is the last one, and the opening goes on from there. -/
  opens : ∀ k < w.attempts n, w.Answers n k (.ok ()) →
    ∃ v, (opening.task n).start w = (opening.onward n).start v ∧ w.Connected n k v
  /-- If no try is accepted, the opening fails with the last refusal. -/
  fails : ∀ e, w.Answers n (w.attempts n - 1) (.error e) →
    ∃ v, (opening.task n).start w = (.error (.connect (w.attempts n) (.error e)), v) ∧
      w.Unconnected n (w.attempts n - 1) v

variable {w v : World σ} {n k : Nat} {accepted : Bool} {e : Event}

theorem Dialed.publish (h : w.Dialed n k accepted v) (e : Event) :
    w.Dialed n k accepted (v.publish n e) := by
  refine ⟨?_, fun m hm => (session_publish_ne v hm.symm e).trans (h.others m hm), h.link, h.calls⟩
  rw [session_publish, Session.publish, h.session]

/-- What was told before does not count. -/
theorem Dialed.of_publish (h : (w.publish n e).Dialed n k accepted v) :
    w.Dialed n k accepted v := by
  obtain ⟨session, others, link, calls⟩ := h
  rw [session_publish] at session link calls
  exact ⟨session, fun m hm => (others m hm).trans (session_publish_ne w hm.symm e), link, calls⟩

omit [Link σ] in
theorem lifecycle_announced (w : World σ) (n : Nat) (h : e.isAnnouncement = true) :
    ((w.publish n e).session n).lifecycle = (w.session n).lifecycle := by
  simp [session_publish, Session.lifecycle, Session.publish, h]

theorem Connected.of_announced (h : (w.publish n e).Connected n k v)
    (announced : e.isAnnouncement = true) : w.Connected n k v := by
  obtain ⟨dialed, connection, lifecycle⟩ := h
  rw [session_publish] at connection
  rw [lifecycle_announced w n announced] at lifecycle
  exact ⟨dialed.of_publish, connection, lifecycle⟩

theorem Unconnected.of_announced (h : (w.publish n e).Unconnected n k v)
    (announced : e.isAnnouncement = true) : w.Unconnected n k v := by
  obtain ⟨dialed, connection, lifecycle⟩ := h
  rw [session_publish] at connection
  rw [lifecycle_announced w n announced] at lifecycle
  exact ⟨dialed.of_publish, connection, lifecycle⟩

theorem Unconnected.announced (h : w.Unconnected n k v) (announced : e.isAnnouncement = true) :
    w.Unconnected n k (v.publish n e) := by
  refine ⟨h.dialed.publish e, ?_, ?_⟩
  · rw [session_publish]
    exact h.connection
  · rw [lifecycle_announced v n announced]
    exact h.lifecycle

/-- The turn in which the connection is opened. -/
theorem retain_opens (unused : (w.session n).connection.count = 0) (hk : k < w.attempts n)
    (h : w.Answers n k (.ok ())) :
    (w.scope n).retain.1 = .ok () ∧ w.Connected n k (w.perform n .retain) := by
  have hr := Scope.retain_accepted (s := w.scope n) unused hk h
  have opened := Scope.opened_tried (w.scope n) k true
  have session := w.perform_session n .retain
  have wire := w.perform_wire n .retain
  simp only [Operation.on, hr] at session wire
  refine ⟨by rw [hr], ⟨?_, fun m hm => w.perform_session_ne hm.symm _, ?_, ?_⟩, ?_, ?_⟩
  · rw [session]
    rfl
  · rw [wire]
    rfl
  · rw [wire]
    rfl
  · rw [session, wire, Scope.wire_publish, Scope.wire_withConnection, opened]
    rfl
  · rw [session]
    simp [Session.lifecycle, Scope.publish, Session.publish, Scope.withConnection, Scope.tried,
      Event.isAnnouncement]

theorem retain_fails (unused : (w.session n).connection.count = 0) {e : Error}
    (h : w.Answers n (w.attempts n - 1) (.error e)) :
    (w.scope n).retain.1 = .error (.connect (w.attempts n) (.error e)) ∧
      w.Unconnected n (w.attempts n - 1) (w.perform n .retain) := by
  have hr := Scope.retain_refused (s := w.scope n) unused h
  have session : (w.perform n .retain).session n = w.session n := by
    rw [perform_session, Operation.on, hr]
    rfl
  have wire := w.perform_wire n .retain
  simp only [Operation.on, hr] at wire
  refine ⟨by rw [hr]; rfl, ⟨?_, fun m hm => w.perform_session_ne hm.symm _, ?_, ?_⟩, ?_, ?_⟩
  · rw [session]
  · rw [wire]
    rfl
  · rw [wire]
    rfl
  · rw [session]
  · rw [session]

/-- Where the connection is opened, beginning goes on with the transaction in it. -/
theorem start_begin_opened (h : (w.scope n).retain.1 = .ok ()) :
    (Session.begin n).start w = (Session.turn n Scope.deepen).start (w.perform n .retain) := by
  have begun : (w.scope n).begin = Scope.deepen (w.scope n).retain.2 := by
    rw [Scope.begin_eq]
    split
    next e t hr =>
      rw [hr] at h
      contradiction
    next t hr => rw [hr]
  have turns : w.turn n Scope.begin = (w.perform n .retain).turn n Scope.deepen := by
    rw [← turn_eq_perform (t := Scope.retain) (fun _ => rfl), turn_turn]
    exact turn_congr begun
  exact turns

theorem start_begin_refused {e : Error} (h : (w.scope n).retain.1 = .error e) :
    (Session.begin n).start w = (.error e, w.perform n .retain) := by
  have begun : (w.scope n).begin = (.error e, (w.scope n).retain.2) := by
    rw [Scope.begin_eq]
    split
    next f t hr =>
      rw [hr] at h
      cases h
      rw [hr]
    next t hr =>
      rw [hr] at h
      contradiction
  have same : w.perform n .begin = w.perform n .retain := by
    simp only [perform, Operation.on, begun]
  rw [Session.start_begin, begun, same]

end World

namespace Act
variable {W α β : Type}

/-- A task that goes on like another one may be followed by whatever follows that one. -/
theorem start_bind_congr {task other : Act W α} {w v : W} (h : task.start w = other.start v)
    (next : α → Act W β) : (task >>= next).start w = (other >>= next).start v := by
  rcases ho : other.start v with ⟨e | a, u⟩
  · rw [start_bind_error (h.trans ho), start_bind_error ho]
  · rw [start_bind_ok (h.trans ho), start_bind_ok ho]

end Act

namespace World
variable {σ : Type} [Link σ] {w v : World σ} {n : Nat}

theorem answers_decided (w : World σ) (n : Nat) :
    (∃ k < w.attempts n, w.Answers n k (.ok ())) ∨
      ∃ e, w.Answers n (w.attempts n - 1) (.error e) := by
  have some_try : 0 < w.attempts n := Nat.lt_of_lt_of_le Nat.zero_lt_one (Nat.le_max_right _ _)
  refine (Link.answers_cases _ w.wire.link _).imp_left fun ⟨k, hk, accepted⟩ => ?_
  exact ⟨k, Nat.lt_of_le_sub_one some_try hk, accepted⟩

/-- An opening that only connects in its first turn. -/
theorem round_of_turn {α : Type} {opening : Opening σ α}
    (unused : (w.session n).connection.count = 0)
    (opens : (w.scope n).retain.1 = .ok () →
      (opening.task n).start w = (opening.onward n).start (w.perform n .retain))
    (fails : ∀ e, (w.scope n).retain.1 = .error e →
      (opening.task n).start w = (.error e, w.perform n .retain)) : w.Round n opening := by
  refine ⟨answers_decided w n, fun k hk h => ?_, fun e h => ?_⟩
  · obtain ⟨retained, connected⟩ := retain_opens unused hk h
    exact ⟨_, opens retained, connected⟩
  · obtain ⟨refused, unconnected⟩ := retain_fails unused h
    exact ⟨_, fails _ refused, unconnected⟩

theorem round_retain (unused : (w.session n).connection.count = 0) : w.Round n .retain := by
  refine round_of_turn unused (fun retained => ?_) fun e refused => ?_
  · show (Session.retain n).start w = _
    rw [Session.start_retain, retained]
    rfl
  · show (Session.retain n).start w = _
    rw [Session.start_retain, refused]

theorem round_begin (unused : (w.session n).connection.count = 0) : w.Round n .begin :=
  round_of_turn unused start_begin_opened fun _ => start_begin_refused

theorem round_retained {α : Type} (task : Act (World σ) α)
    (unused : (w.session n).connection.count = 0) : w.Round n (.retained task) := by
  refine round_of_turn unused (fun retained => ?_) fun e refused => ?_
  · have opened : (Session.retain n).start w = (.ok (), w.perform n .retain) := by
      rw [Session.start_retain, retained]
    exact Act.start_bind_ok opened
  · have closed : (Session.retain n).start w = (.error e, w.perform n .retain) := by
      rw [Session.start_retain, refused]
    exact Act.start_bind_error closed

theorem round_transaction {α : Type} (task : Act (World σ) α)
    (unused : (w.session n).connection.count = 0) : w.Round n (.transaction task) :=
  round_of_turn unused (fun retained => Act.start_bind_congr (start_begin_opened retained) _)
    fun _ refused => Act.start_bind_error (start_begin_refused refused)

/-- The statement between an opening and a closing step. -/
theorem framed_opens (transact : Bool) (sql : String) (params : List Json) {k : Nat}
    (unused : (w.session n).connection.count = 0) (hk : k < w.attempts n)
    (h : w.Answers n k (.ok ())) : ∃ v, (Session.framed n transact sql params).start w =
      (Session.framedOnward n transact sql params).start v ∧ w.Connected n k v := by
  cases transact with
  | true => exact (round_transaction (Session.statement n sql params) unused).opens k hk h
  | false => exact (round_retained (Session.statement n sql params) unused).opens k hk h

theorem framed_fails (transact : Bool) (sql : String) (params : List Json) {e : Error}
    (unused : (w.session n).connection.count = 0)
    (h : w.Answers n (w.attempts n - 1) (.error e)) :
    ∃ v, (Session.framed n transact sql params).start w =
        (.error (.connect (w.attempts n) (.error e)), v) ∧
      w.Unconnected n (w.attempts n - 1) v := by
  cases transact with
  | true => exact (round_transaction (Session.statement n sql params) unused).fails e h
  | false => exact (round_retained (Session.statement n sql params) unused).fails e h

/-- What a statement goes on with once there is a connection, and what is told of it then. -/
theorem start_execWith_onward {sql : String} {params : List Json} (options : ExecOptions)
    {transact : Bool}
    (same : transact = (options.transaction || (w.session n).config.alwaysTransact))
    (config : (v.session n).config = (w.session n).config)
    (framed : (Session.framed n transact sql params).start (w.publish n (.preQuery sql params)) =
      (Session.framedOnward n transact sql params).start v) :
    (Session.execWith n sql params options).start w =
      (Opening.onward n (.execWith sql params options)).start v := by
  subst same
  rcases hu : (Session.framedOnward n
    (options.transaction || (w.session n).config.alwaysTransact) sql params).start v with
    ⟨outcome, u⟩
  have announced : (Session.announce n (.query sql params)).start u =
      (.ok (), u.publish n (.query sql params)) := rfl
  have ran : (Session.framedOnward n
      (options.transaction || (w.session n).config.alwaysTransact) sql params).outcome.start v =
      (.ok outcome, u) := by rw [Act.start_outcome, hu]
  rw [Session.start_execWith options (framed.trans hu), Opening.onward,
    Act.start_bind_ok (Session.start_look n v), config, Act.start_bind_ok ran,
    Act.start_bind_ok announced, Session.converted_congr config]
  cases outcome <;> rfl

theorem round_execWith (sql : String) (params : List Json) (options : ExecOptions)
    (unused : (w.session n).connection.count = 0) :
    w.Round n (.execWith sql params options) := by
  let told := w.publish n (.preQuery sql params)
  have own : told.session n = (w.session n).publish (.preQuery sql params) :=
    session_publish w n _
  have unused_told : (told.session n).connection.count = 0 := by
    rw [own]
    exact unused
  have attempts : told.attempts n = w.attempts n := by
    rw [World.attempts, own]
    rfl
  have answers (k : Nat) (answer : Except Error Unit) (h : w.Answers n k answer) :
      told.Answers n k answer := by
    rw [World.Answers, own]
    exact h
  refine ⟨answers_decided w n, fun k hk h => ?_, fun e h => ?_⟩
  · obtain ⟨v, hv, connected⟩ := framed_opens
      (options.transaction || (w.session n).config.alwaysTransact) sql params unused_told
      (attempts ▸ hk) (answers k _ h)
    have passed := connected.of_announced rfl
    have config : (v.session n).config = (w.session n).config := by rw [passed.dialed.session]
    exact ⟨v, start_execWith_onward options rfl config hv, passed⟩
  · obtain ⟨v, hv, unconnected⟩ := framed_fails
      (options.transaction || (w.session n).config.alwaysTransact) sql params unused_told
      (attempts ▸ answers _ _ h)
    rw [attempts] at hv unconnected
    exact ⟨_, Session.start_execWith options hv, (unconnected.of_announced rfl).announced rfl⟩

theorem round_opening {α : Type} (opening : Opening σ α)
    (unused : (w.session n).connection.count = 0) : w.Round n opening := by
  cases opening with
  | retain => exact round_retain unused
  | begin => exact round_begin unused
  | execWith sql params options => exact round_execWith sql params options unused
  | retained task => exact round_retained task unused
  | transaction task => exact round_transaction task unused

end World

/-- Whatever wants a connection where nobody uses one has a round of tries. After a round in vain
the next opening, whatever it is, has a whole round of its own. -/
theorem openings_dial_in_rounds {σ α β : Type} [Link σ] {w : World σ} {n : Nat}
    (unused : (w.session n).connection.count = 0) (opening : Opening σ α) (next : Opening σ β) :
    w.Round n opening ∧ ∀ e, w.Answers n (w.attempts n - 1) (.error e) →
      ((opening.task n).start w).2.Round n next := by
  have round := World.round_opening opening unused
  refine ⟨round, fun e refused => ?_⟩
  obtain ⟨v, hv, unconnected⟩ := round.fails e refused
  rw [hv]
  exact World.round_opening next (by rw [unconnected.connection]; exact unused)

/-- Three tries are made with two pauses between them and the statement is not run; the link is
back for the next opening. -/
theorem openings_dial_in_rounds_again :
    let link : Script := { failingConnects := 3 }
    let config : Config := { retry := { count := 3, delay := .ofMillis 250 } }
    let w : World Script :=
      { wire := { link }, sessions := [(1, { number := 1, database := ⟨0, none⟩, config })] }
    let opening : Opening Script Output := .execWith "SELECT 1" [] {}
    let v := ((opening.task 1).start w).2
    (w.session 1).connection.count = 0 ∧
      ((opening.task 1).start w).1 =
        .error (.connect 3 (.error (.link "connection refused"))) ∧
      v.wire.calls = [.connect 1 false, .pause (.ofMillis 250), .connect 1 false,
        .pause (.ofMillis 250), .connect 1 false] ∧
      ∃ u, (Session.begin 1).start v = (Session.turn 1 Scope.deepen).start u ∧
        (u.session 1).connection = ⟨1, 0, some 1⟩ := by
  intro link config w opening v
  have unused : (w.session 1).connection.count = 0 := rfl
  have refused : w.Answers 1 2 (.error (.link "connection refused")) := ⟨by decide, rfl⟩
  obtain ⟨round, again⟩ :=
    openings_dial_in_rounds unused opening (.begin : Opening Script Unit)
  obtain ⟨v', hv, failed⟩ := round.fails _ refused
  obtain rfl : v = v' := congrArg Prod.snd hv
  have session := failed.dialed.session
  have calls : v.wire.calls = _ := failed.dialed.calls
  have tries : 0 < v.attempts 1 := by
    rw [World.attempts, session]
    decide
  have accepted : v.Answers 1 0 (.ok ()) := by
    rw [World.Answers, session, failed.dialed.link]
    exact ⟨nofun, rfl⟩
  obtain ⟨u, begun, connected⟩ := (again _ refused).opens 0 tries accepted
  have first : u.wire.opened = 1 := by
    rw [Wire.opened, connected.dialed.calls, calls, session]
    rfl
  refine ⟨unused, congrArg Prod.fst hv, calls, u, begun, ?_⟩
  rw [connected.connection, failed.connection, first]
  rfl

end DataAccess
