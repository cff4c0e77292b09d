import DataAccess.Proofs.Session.Restore

/-!
Programs that are made of statements and of tasks between an opening and a closing step. Whatever
fails in them, such a program leaves the connection of its session as it has found it, and gives
back the connections that it has obtained.
-/
namespace DataAccess

namespace Act
variable {W α β : Type}

theorem start_bind_ok {task : Act W α} {next : α → Act W β} {w v : W} {a : α}
    (h : task.start w = (.ok a, v)) : (task >>= next).start w = (next a).start v := by
  have h' : Routine.run task.run w = (.ok a, v) := h
  calc (task >>= next).start w
      = (ExceptT.bindCont next (Routine.run task.run w).1).run (Routine.run task.run w).2 :=
        Routine.run_bind _ _ _
    _ = (next a).start v := by rw [h']; rfl

theorem start_bind_error {task : Act W α} {next : α → Act W β} {w v : W} {e : Error}
    (h : task.start w = (.error e, v)) : (task >>= next).start w = (.error e, v) := by
  have h' : Routine.run task.run w = (.error e, v) := h
  calc (task >>= next).start w
      = (ExceptT.bindCont next (Routine.run task.run w).1).run (Routine.run task.run w).2 :=
        Routine.run_bind _ _ _
    _ = (.error e, v) := by rw [h']; rfl

theorem start_outcome (task : Act W α) (w : W) :
    task.outcome.start w = (.ok (task.start w).1, (task.start w).2) :=
  Routine.run_bind _ _ _

theorem start_holding (gate : Gate) (task : Act W α) (w : W) :
    (holding gate task).start w = task.start w :=
  Routine.run_holding gate task.run w

end Act

namespace Session
variable {σ α : Type} [Link σ]

theorem start_retain (n : Nat) (w : World σ) :
    (retain n).start w = ((w.scope n).retain.1, w.perform n .retain) :=
  Act.start_holding _ _ w

theorem start_release (n : Nat) (w : World σ) :
    (release n).start w = ((w.scope n).release.1, w.perform n .release) :=
  Act.start_holding _ _ w

theorem start_begin (n : Nat) (w : World σ) :
    (begin n).start w = ((w.scope n).begin.1, w.perform n .begin) :=
  Act.start_holding _ _ w

theorem start_finish (n : Nat) (failure : Option Error) (w : World σ) :
    (finish n failure).start w =
      (((w.scope n).finish failure).1, w.perform n (.finish failure)) :=
  Act.start_holding _ _ w

theorem start_statement (n : Nat) (sql : String) (params : List Json) (w : World σ) :
    (statement n sql params).start w =
      (((w.scope n).statement sql params).1, w.perform n (.statement sql params)) :=
  Act.start_holding _ _ w

end Session

/-- A call that runs a task between an opening and a closing step. If the opening step fails, that
is all that happens. Otherwise the call fails as the task does, or else as the closing step does. -/
structure Act.Framed {W α : Type} (opening : Act W Unit) (closing : Except Error α → Act W Unit)
    (task call : Act W α) : Prop where
  refused {w u : W} {e : Error} : opening.start w = (.error e, u) → call.start w = (.error e, u)
  failed {w u v x : W} {e : Error} {closed : Except Error Unit} :
    opening.start w = (.ok (), u) → task.start u = (.error e, v) →
      (closing (.error e)).start v = (closed, x) → call.start w = (.error e, x)
  unclosed {w u v x : W} {a : α} {e : Error} :
    opening.start w = (.ok (), u) → task.start u = (.ok a, v) →
      (closing (.ok a)).start v = (.error e, x) → call.start w = (.error e, x)
  passed {w u v x : W} {a : α} :
    opening.start w = (.ok (), u) → task.start u = (.ok a, v) →
      (closing (.ok a)).start v = (.ok (), x) → call.start w = (.ok a, x)

namespace Act
variable {W α : Type} {opening : Act W Unit} {closing : Except Error α → Act W Unit}
  {task call : Act W α}

theorem start_between {w u v x : W} {result : Except Error α} {closed : Except Error Unit}
    (ho : opening.start w = (.ok (), u)) (ht : task.start u = (result, v))
    (hc : (closing result).start v = (closed, x)) :
    Act.start (do
      opening
      let outcome ← task.outcome
      let closed ← (closing outcome).outcome
      .ofExcept (settle outcome closed)) w = (settle result closed, x) := by
  have task_ok : task.outcome.start u = (.ok result, v) := by rw [start_outcome, ht]
  have closing_ok : (closing result).outcome.start v = (.ok closed, x) := by
    rw [start_outcome, hc]
  rw [start_bind_ok ho, start_bind_ok task_ok, start_bind_ok closing_ok]
  rfl

theorem framed (h : call = do
      opening
      let outcome ← task.outcome
      let closed ← (closing outcome).outcome
      .ofExcept (settle outcome closed)) : Framed opening closing task call := by
  subst h
  refine ⟨fun ho => start_bind_error ho, fun ho ht hc => ?_, fun ho ht hc => ?_,
    fun ho ht hc => ?_⟩
  · exact start_between ho ht hc
  · exact start_between ho ht hc
  · exact start_between ho ht hc

/-- If the opening step does not fail, the closing step comes last. -/
theorem Framed.world {w u : W} (h : Framed opening closing task call)
    (ho : opening.start w = (.ok (), u)) :
    (call.start w).2 = ((closing (task.start u).1).start (task.start u).2).2 := by
  rcases ht : task.start u with ⟨result, v⟩
  rcases hc : (closing result).start v with ⟨closed, x⟩
  show (call.start w).2 = x
  cases result with
  | error e => rw [h.failed ho ht hc]
  | ok a =>
    cases closed with
    | error e => rw [h.unclosed ho ht hc]
    | ok _ => rw [h.passed ho ht hc]

end Act

namespace Session
variable {σ α β : Type} {n : Nat}

def Restoring (n : Nat) (task : Act (World σ) α) : Prop :=
  ∀ w : World σ, (w.scope n).connection.Sound → (w.scope n).Restores ((task.start w).2.scope n)

theorem restoring_bind {task : Act (World σ) α} {next : α → Act (World σ) β}
    (ht : Restoring n task) (hn : ∀ a, Restoring n (next a)) : Restoring n (task >>= next) := by
  intro w hw
  have first := ht w hw
  rcases h : task.start w with ⟨e | a, v⟩ <;> rw [h] at first
  · rwa [Act.start_bind_error h]
  · rw [Act.start_bind_ok h]
    have sound : (v.scope n).connection.Sound := by rwa [first.connection]
    exact first.trans (hn a v sound)

theorem restoring_outcome {task : Act (World σ) α} (ht : Restoring n task) :
    Restoring n task.outcome := by
  intro w hw
  rw [Act.start_outcome]
  exact ht w hw

theorem restoring_ofExcept (outcome : Except Error α) :
    Restoring (σ := σ) n (.ofExcept outcome) :=
  fun _ _ => .refl _

theorem restoring_announce (e : Event) : Restoring (σ := σ) n (announce n e) := by
  intro w _
  have h := w.publish_aside n e
  refine .of_quiet (h.number n) (h.connection n) ?_ (congrArg Wire.opened h.wire)
  exact (congrArg Wire.calls h.wire).symm ▸ List.prefix_refl _

variable [Link σ]

theorem framed_retained (n : Nat) (task : Act (World σ) α) :
    Act.Framed (retain n) (fun _ => release n) task (retained n task) :=
  Act.framed rfl

theorem framed_transaction (n : Nat) (task : Act (World σ) α) :
    Act.Framed (begin n) (fun outcome => finish n (failure? outcome)) task
      (transaction n task) :=
  Act.framed rfl

theorem restoring_statement (sql : String) (params : List Json) :
    Restoring (σ := σ) n (statement n sql params) := by
  intro w _
  rw [start_statement, World.perform_scope]
  exact Scope.restores_statement _ sql params

end Session

/-- What a task may stand in: a connection that is retained for it, or a transaction. -/
inductive Enclosure where
  | retained
  | transaction

namespace Enclosure
variable {σ α : Type} [Link σ] {n : Nat} {w v : World σ}

def opening (n : Nat) : Enclosure → Act (World σ) Unit
  | retained => Session.retain n
  | transaction => Session.begin n

def closing (n : Nat) (e : Enclosure) (outcome : Except Error α) : Act (World σ) Unit :=
  match e with
  | retained => Session.release n
  | transaction => Session.finish n (failure? outcome)

def around (n : Nat) (e : Enclosure) (task : Act (World σ) α) : Act (World σ) α :=
  match e with
  | retained => Session.retained n task
  | transaction => Session.transaction n task

def depth : Enclosure → Nat
  | retained => 0
  | transaction => 1

theorem framed (n : Nat) (e : Enclosure) (task : Act (World σ) α) :
    Act.Framed (e.opening n) (e.closing n) task (e.around n task) := by
  cases e with
  | retained => exact Session.framed_retained n task
  | transaction => exact Session.framed_transaction n task

/-- Nothing has changed when the opening step fails. -/
theorem restores_of_refused (e : Enclosure) {f : Error} (hw : (w.scope n).connection.Sound)
    (h : (e.opening n).start w = (.error f, v)) : (w.scope n).Restores (v.scope n) := by
  cases e with
  | retained =>
    obtain ⟨hf, rfl⟩ := Prod.ext_iff.mp ((Session.start_retain n w).symm.trans h)
    rw [World.perform_scope]
    exact Scope.restores_retain (Prod.ext hf rfl)
  | transaction =>
    obtain ⟨hf, rfl⟩ := Prod.ext_iff.mp ((Session.start_begin n w).symm.trans h)
    rw [World.perform_scope]
    exact Scope.restores_begin hw (Prod.ext hf rfl)

theorem enters_of_opened (e : Enclosure) (h : (e.opening n).start w = (.ok (), v)) :
    (w.scope n).Enters (v.scope n) ((w.scope n).connection.depth + e.depth) := by
  cases e with
  | retained =>
    obtain ⟨ho, rfl⟩ := Prod.ext_iff.mp ((Session.start_retain n w).symm.trans h)
    rw [World.perform_scope]
    exact Scope.enters_retain (Prod.ext ho rfl)
  | transaction =>
    obtain ⟨ho, rfl⟩ := Prod.ext_iff.mp ((Session.start_begin n w).symm.trans h)
    rw [World.perform_scope]
    exact Scope.enters_begin (Prod.ext ho rfl)

theorem restores_of_closed (e : Enclosure) (hw : (w.scope n).connection.Sound)
    (h : (w.scope n).Enters (v.scope n) ((w.scope n).connection.depth + e.depth))
    (outcome : Except Error α) :
    (w.scope n).Restores (((e.closing n outcome).start v).2.scope n) := by
  cases e with
  | retained =>
    rw [closing, Session.start_release, World.perform_scope]
    exact Scope.Enters.release hw h
  | transaction =>
    rw [closing, Session.start_finish, World.perform_scope]
    exact Scope.Enters.finish hw h _

theorem sound_of_opened (e : Enclosure) (hw : (w.scope n).connection.Sound)
    (h : (e.opening n).start w = (.ok (), v)) : (v.scope n).connection.Sound := by
  have shallow : e.depth ≤ 1 := by cases e <;> decide
  exact (e.enters_of_opened h).sound hw (Nat.add_le_add hw.depth_le shallow)

/-- An enclosed task that restores the connection itself restores it altogether: the opening step
gains a user and perhaps a transaction, and the closing step gives up as much. -/
theorem restoring (e : Enclosure) {task : Act (World σ) α} (ht : Session.Restoring n task) :
    Session.Restoring n (e.around n task) := by
  intro w hw
  rcases ho : (e.opening n).start w with ⟨f | _, v⟩
  · rw [(e.framed n task).refused ho]
    exact e.restores_of_refused hw ho
  · have entered := (e.enters_of_opened ho).trans (ht v (e.sound_of_opened hw ho))
    rw [(e.framed n task).world ho]
    exact e.restores_of_closed hw entered _

end Enclosure

namespace Session
variable {σ : Type} [Link σ] {n : Nat}

theorem restoring_execWith (sql : String) (params : List Json) (options : ExecOptions) :
    Restoring (σ := σ) n (execWith n sql params options) := by
  have framed_restoring (transact : Bool) :
      Restoring (σ := σ) n (framed n transact sql params) := by
    unfold framed
    split
    · exact Enclosure.transaction.restoring (restoring_statement sql params)
    · exact Enclosure.retained.restoring (restoring_statement sql params)
  refine restoring_bind (fun w _ => .refl _) fun session => ?_
  refine restoring_bind (restoring_announce _) fun _ => ?_
  refine restoring_bind (restoring_outcome (framed_restoring _)) fun outcome => ?_
  refine restoring_bind (restoring_announce _) fun _ => ?_
  exact restoring_bind (restoring_ofExcept outcome) fun _ => fun _ _ => .refl _

end Session

/-- Programs on one session that use its connection only by statements, and by tasks between an
opening and a closing step. Errors may be raised and caught anywhere. -/
inductive Structured {σ : Type} [Link σ] (n : Nat) : {α : Type} → Act (World σ) α → Prop
  | ofExcept {α : Type} (outcome : Except Error α) : Structured n (.ofExcept outcome)
  | bind {α β : Type} {task : Act (World σ) α} {next : α → Act (World σ) β} :
    Structured n task → (∀ a, Structured n (next a)) → Structured n (task >>= next)
  | outcome {α : Type} {task : Act (World σ) α} : Structured n task → Structured n task.outcome
  | statement (sql : String) (params : List Json) : Structured n (Session.statement n sql params)
  | execWith (sql : String) (params : List Json) (options : ExecOptions) :
    Structured n (Session.execWith n sql params options)
  | retained {α : Type} {task : Act (World σ) α} :
    Structured n task → Structured n (Session.retained n task)
  | transaction {α : Type} {task : Act (World σ) α} :
    Structured n task → Structured n (Session.transaction n task)

theorem Structured.restoring {σ α : Type} [Link σ] {n : Nat} {program : Act (World σ) α}
    (h : Structured n program) : Session.Restoring n program := by
  induction h with
  | ofExcept outcome => exact Session.restoring_ofExcept outcome
  | bind _ _ iht ihn => exact Session.restoring_bind iht ihn
  | outcome _ ih => exact Session.restoring_outcome ih
  | statement sql params => exact Session.restoring_statement sql params
  | execWith sql params options => exact Session.restoring_execWith sql params options
  | retained _ ih => exact Enclosure.retained.restoring ih
  | transaction _ ih => exact Enclosure.transaction.restoring ih

/-- Whatever has gone on before, and whatever the link refuses: a structured program leaves the
connection of its session as it was, whether or not it fails, and every connection opened meanwhile
has been given back. A task between an opening and a closing step is not begun if the opening step
fails; otherwise its own failure comes first, then that of the closing step. -/
theorem structured_restores {σ α β : Type} [Link σ] {w : World σ} (fresh : w.Fresh)
    {tasks : List (Act (World σ) α)} (plans : ∀ t ∈ tasks, Plan (fun _ => True) t)
    (schedule : List Nat) {n : Nat} {program : Act (World σ) β} (h : Structured n program) :
    let before := ((Crowd.start w tasks).follow schedule).world
    let after := (program.start before).2
    (after.session n).connection = (before.session n).connection ∧
      (∃ more, after.wire.calls = before.wire.calls ++ more ∧
        ∀ c, before.wire.opened < c → c ≤ after.wire.opened → Call.release n c ∈ more) ∧
      ∀ {γ : Type} (task : Act (World σ) γ),
        Act.Framed (Session.retain n) (fun _ => Session.release n) task
            (Session.retained n task) ∧
          Act.Framed (Session.begin n) (fun outcome => Session.finish n (failure? outcome)) task
            (Session.transaction n task) := by
  intro before after
  have balanced : before.Balanced := Plan.invariant (fun w n o _ h => h.perform n o)
    (fun w v a h => h.aside a) fresh.balanced plans schedule
  obtain ⟨hn, hb⟩ := balanced n
  have restores := h.restoring before hb.sound
  obtain ⟨more, hm, hr⟩ := restores.returned
  rw [World.scope_session, hn] at hr
  exact ⟨restores.connection, ⟨more, hm, hr⟩, fun task =>
    ⟨Session.framed_retained n task, Session.framed_transaction n task⟩⟩

/-- After a COMMIT that was refused, the next one is refused as well. The program catches that and
goes on, and both of its connections have been given back. -/
theorem structured_restores_refused :
    let w : World Script := { wire := { link := { failures := [{ fragment := "COMMIT" }] } } }
    let tasks : List (Act (World Script) (List Record)) :=
      [Session.transaction 1 (Session.statement 1 "DELETE FROM t" [])]
    let doomed : Act (World Script) (List Record) :=
      Session.transaction 1 (Session.retained 1 (Session.statement 1 "SELECT 1" []))
    let program : Act (World Script) Output :=
      doomed.outcome >>= fun _ => Session.execWith 1 "SELECT 2" [] {}
    w.Fresh ∧ (∀ t ∈ tasks, Plan (fun _ => True) t) ∧ Structured 1 program ∧
      let before := ((Crowd.start w tasks).follow (List.replicate 12 0)).world
      let after := (program.start before).2
      (doomed.start before).1.isOk = false ∧ (program.start before).1.isOk = true ∧
        (after.session 1).connection = {} ∧
        ∃ more, after.wire.calls = before.wire.calls ++ more ∧
          Call.release 1 2 ∈ more ∧ Call.release 1 3 ∈ more := by
  intro w tasks doomed program
  have fresh : w.Fresh := ⟨rfl, fun _ => rfl, fun _ => rfl⟩
  have plans : ∀ t ∈ tasks, Plan (fun _ => True) t := by
    simp only [tasks, List.forall_mem_singleton]
    exact .transaction 1 (.statement 1 [] trivial)
  have structured : Structured 1 program :=
    .bind (.outcome (.transaction (.retained (.statement _ _)))) fun _ => .execWith _ _ _
  have first : ((Crowd.start w tasks).follow (List.replicate 12 0)).world.wire.opened = 1 := by
    decide
  have third : (program.start
      ((Crowd.start w tasks).follow (List.replicate 12 0)).world).2.wire.opened = 3 := by decide
  have unused : (((Crowd.start w tasks).follow (List.replicate 12 0)).world.session 1).connection =
      {} := by decide
  have restored := structured_restores fresh plans (List.replicate 12 0) structured
  simp only [first, third, unused] at restored
  obtain ⟨hc, ⟨more, hm, hr⟩, -⟩ := restored
  refine ⟨fresh, plans, structured, by decide, by decide, hc, more, hm, ?_, ?_⟩
  · exact hr 2 (by decide) (by decide)
  · exact hr 3 (by decide) (by decide)

end DataAccess
