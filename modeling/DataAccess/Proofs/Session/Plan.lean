import DataAccess.Session.Operation
import DataAccess.Proofs.Session.Crowd

/-!
Tasks that are made of the operations of sessions, and what such a task may change: each of its
steps is one operation on one connection, or touches no connection.
-/
namespace DataAccess

def Event.isAnnouncement : Event → Bool
  | preQuery .. | query .. => true
  | _ => false

/-- What is done on the connection of a session in one turn. -/
inductive Operation where
  | retain
  | release
  | begin
  | finish (failure : Option Error)
  | statement (sql : String) (params : List Json)
  | close

namespace Operation
variable {σ : Type} [Link σ]

def on (o : Operation) (s : Scope σ) : Scope σ :=
  match o with
  | retain => s.retain.2
  | release => s.release.2
  | begin => s.begin.2
  | finish failure => (s.finish failure).2
  | statement sql params => (s.statement sql params).2
  | close => s.close.2

/-- The caller's own SQL is admitted; the statements of the session itself are not in question. -/
def Admitted (admits : String → Prop) : Operation → Prop
  | statement sql _ => admits sql
  | _ => True

theorem admitted_all (o : Operation) : o.Admitted fun _ => True := by
  cases o <;> trivial

end Operation

namespace World
variable {σ : Type}

def scope (w : World σ) (n : Nat) : Scope σ := ⟨w.session n, w.wire⟩

@[simp] theorem scope_session (w : World σ) (n : Nat) : (w.scope n).session = w.session n := rfl

@[simp] theorem scope_wire (w : World σ) (n : Nat) : (w.scope n).wire = w.wire := rfl

theorem session_putSession (w : World σ) (n m : Nat) (s : Session) :
    (w.putSession n s).session m = if n = m then s else w.session m := by
  simp only [session, putSession, Assoc.get?_put]
  split <;> rfl

structure Aside (w v : World σ) : Prop where
  wire : v.wire = w.wire
  number : ∀ n, (v.session n).number = (w.session n).number
  config : ∀ n, (v.session n).config = (w.session n).config
  database : ∀ n, (v.session n).database = (w.session n).database
  connection : ∀ n, (v.session n).connection = (w.session n).connection

theorem Aside.refl (w : World σ) : w.Aside w :=
  ⟨rfl, fun _ => rfl, fun _ => rfl, fun _ => rfl, fun _ => rfl⟩

theorem publish_aside (w : World σ) (n : Nat) (e : Event) : w.Aside (w.publish n e) := by
  have h (m : Nat) : (w.publish n e).session m = w.session m ∨
      (w.publish n e).session m = (w.session m).publish e := by
    rw [publish, session_putSession]
    split_ifs with hm
    · exact .inr (hm ▸ rfl)
    · exact .inl rfl
  refine ⟨rfl, fun m => ?_, fun m => ?_, fun m => ?_, fun m => ?_⟩ <;>
    rcases h m with h | h <;> rw [h] <;> rfl

variable [Link σ] {admits : String → Prop}

def perform (w : World σ) (n : Nat) (o : Operation) : World σ :=
  { w.putSession n (o.on (w.scope n)).session with wire := (o.on (w.scope n)).wire }

@[simp] theorem perform_wire (w : World σ) (n : Nat) (o : Operation) :
    (w.perform n o).wire = (o.on (w.scope n)).wire := rfl

@[simp] theorem perform_session (w : World σ) (n : Nat) (o : Operation) :
    (w.perform n o).session n = (o.on (w.scope n)).session :=
  (session_putSession w n n _).trans (if_pos rfl)

theorem perform_scope (w : World σ) (n : Nat) (o : Operation) :
    (w.perform n o).scope n = o.on (w.scope n) := by
  simp only [scope, perform_session, perform_wire]

theorem perform_session_ne (w : World σ) {n m : Nat} (h : n ≠ m) (o : Operation) :
    (w.perform n o).session m = w.session m :=
  (session_putSession w n m _).trans (if_neg h)

/-- What the operation keeps of its session is kept of all. -/
theorem perform_same {β : Type} {f : Session → β} {w : World σ} {n : Nat} {o : Operation}
    (h : f (o.on (w.scope n)).session = f (w.session n)) (m : Nat) :
    f ((w.perform n o).session m) = f (w.session m) := by
  by_cases hm : n = m
  · subst hm
    rw [perform_session]
    exact h
  · rw [perform_session_ne w hm]

theorem turn_eq_perform {α : Type} {t : Scope σ → Except Error α × Scope σ} {o : Operation}
    (h : ∀ s, (t s).2 = o.on s) (w : World σ) (n : Nat) : (w.turn n t).2 = w.perform n o := by
  rw [perform, ← h]
  rfl

/-- What becomes of the connections in one step of a task: an operation of some session, or what
touches no connection. -/
inductive Change (admits : String → Prop) : (World σ → World σ) → Prop
  | operation (n : Nat) {o : Operation} (h : o.Admitted admits) :
    Change admits fun w => w.perform n o
  | aside {f : World σ → World σ} (h : ∀ w, Aside w (f w)) : Change admits f

/-- Nothing that a session tells or remembers of its connection has changed between two worlds. -/
structure Unseen (w v : World σ) : Prop extends w.Aside v where
  history : ∀ n, (v.session n).history = (w.session n).history
  events : ∀ n, (v.session n).events = (w.session n).events

omit [Link σ] in
theorem Unseen.refl (w : World σ) : w.Unseen w := ⟨.refl w, fun _ => rfl, fun _ => rfl⟩

/-- One step of a task: an operation of some session, the announcement of a statement, or what no
session sees. -/
inductive Step (admits : String → Prop) : (World σ → World σ) → Prop
  | operation (n : Nat) {o : Operation} (h : o.Admitted admits) :
    Step admits fun w => w.perform n o
  | announcement (n : Nat) {e : Event} (h : e.isAnnouncement = true) :
    Step admits fun w => w.publish n e
  | unseen {f : World σ → World σ} (h : ∀ w, Unseen w (f w)) : Step admits f

theorem Step.still : Step (σ := σ) admits fun w => w := .unseen Unseen.refl

theorem Step.change {f : World σ → World σ} (h : Step admits f) : Change admits f := by
  cases h with
  | operation n ho => exact .operation n ho
  | announcement n he => exact .aside fun w => w.publish_aside n _
  | unseen h => exact .aside fun w => (h w).toAside

end World

/-- Tasks made of the operations of sessions, one after the other, with any control flow between
them. The statements that callers write themselves are admitted ones. -/
inductive Plan {σ : Type} [Link σ] (admits : String → Prop) : {α : Type} → Act (World σ) α → Prop
  | ofExcept {α : Type} (outcome : Except Error α) : Plan admits (.ofExcept outcome)
  | bind {α β : Type} {task : Act (World σ) α} {next : α → Act (World σ) β} :
    Plan admits task → (∀ a, Plan admits (next a)) → Plan admits (task >>= next)
  | outcome {α : Type} {task : Act (World σ) α} : Plan admits task → Plan admits task.outcome
  | retain (n : Nat) : Plan admits (Session.retain n)
  | release (n : Nat) : Plan admits (Session.release n)
  | begin (n : Nat) : Plan admits (Session.begin n)
  | endTransaction (n : Nat) (failure : Option Error) (rethrow : Bool) :
    Plan admits (Session.endTransaction n failure rethrow)
  | retained {α : Type} (n : Nat) {task : Act (World σ) α} :
    Plan admits task → Plan admits (Session.retained n task)
  | transaction {α : Type} (n : Nat) {task : Act (World σ) α} :
    Plan admits task → Plan admits (Session.transaction n task)
  | statement (n : Nat) {sql : String} (params : List Json) :
    admits sql → Plan admits (Session.statement n sql params)
  | execWith (n : Nat) {sql : String} (params : List Json) (options : ExecOptions) :
    admits sql → Plan admits (Session.execWith n sql params options)
  | close (n : Nat) : Plan admits (Session.close n)

namespace Act
variable {W α β : Type}

def Gives (Q : α → Prop) (task : Act W α) : Prop := Routine.Gives (∀ a, · = .ok a → Q a) task.run

theorem gives_bind {Q : β → Prop} {task : Act W α} {next : α → Act W β}
    (hn : ∀ a, (next a).Gives Q) : (task >>= next).Gives Q := by
  refine Routine.Gives.bind (Routine.gives_trivial _) fun outcome _ => ?_
  cases outcome with
  | ok a => exact hn a
  | error e => exact fun _ h => nomatch h

end Act

namespace Routine.Composes
variable {W α β : Type} {C : (α : Type) → Routine W α → Prop} (parts : Composes C)
include parts

theorem ofExcept (outcome : Except Error α) : C _ (Act.ofExcept outcome : Act W α).run :=
  parts.done _

theorem act_bind_of_gives {Q : α → Prop} {task : Act W α} {next : α → Act W β}
    (ht : C _ task.run) (hq : task.Gives Q) (hn : ∀ a, Q a → C _ (next a).run) :
    C _ (task >>= next).run := by
  refine parts.bind ht hq fun outcome ho => ?_
  cases outcome with
  | ok a => exact hn a (ho a rfl)
  | error e => exact parts.done _

theorem act_bind {task : Act W α} {next : α → Act W β} (ht : C _ task.run)
    (hn : ∀ a, C _ (next a).run) : C _ (task >>= next).run :=
  parts.act_bind_of_gives (Q := fun _ => True) ht
    (Routine.gives_of_forall (fun _ _ _ => trivial) _) fun a _ => hn a

theorem outcome {task : Act W α} (ht : C _ task.run) : C _ task.outcome.run :=
  parts.bind ht (Routine.gives_trivial _) fun _ _ => parts.done _

end Routine.Composes

namespace Session
variable {σ α : Type} [Link σ] {admits : String → Prop}

/-- A property that whatever is composed of turns at a connection has. -/
structure Turns (admits : String → Prop) (C : (α : Type) → Routine (World σ) α → Prop) : Prop
    extends Routine.Composes C where
  of_turn {α : Type} (n : Nat) {t : Scope σ → Except Error α × Scope σ} {o : Operation} :
    o.Admitted admits → (∀ s, (t s).2 = o.on s) → C _ (turn n t).run

/-- A property that statements which find a connection for themselves have, too. -/
structure Statements (admits : String → Prop) (C : (α : Type) → Routine (World σ) α → Prop) : Prop
    extends Turns admits C where
  read {α : Type} (f : World σ → α) : C _ (Act.read f).run
  announce (n : Nat) {e : Event} : e.isAnnouncement = true → C _ (announce n e).run

section
variable {C : (α : Type) → Routine (World σ) α → Prop} (n : Nat)

namespace Turns
variable (parts : Turns admits C)
include parts

theorem retain : C _ (retain (σ := σ) n).run :=
  parts.of_turn n (o := .retain) trivial fun _ => rfl

theorem release : C _ (release (σ := σ) n).run :=
  parts.of_turn n (o := .release) trivial fun _ => rfl

theorem begin : C _ (begin (σ := σ) n).run :=
  parts.of_turn n (o := .begin) trivial fun _ => rfl

theorem finish (failure : Option Error) : C _ (finish (σ := σ) n failure).run :=
  parts.of_turn n (o := .finish failure) trivial fun _ => rfl

theorem close : C _ (close (σ := σ) n).run :=
  parts.of_turn n (o := .close) trivial fun _ => rfl

theorem statement {sql : String} (h : admits sql) (params : List Json) :
    C _ (statement (σ := σ) n sql params).run :=
  parts.of_turn n (o := .statement sql params) h fun _ => rfl

theorem retained {task : Act (World σ) α} (h : C _ task.run) : C _ (retained n task).run :=
  parts.act_bind (parts.retain n) fun _ =>
    parts.act_bind (parts.outcome h) fun _ =>
      parts.act_bind (parts.outcome (parts.release n)) fun _ => parts.ofExcept _

theorem transaction {task : Act (World σ) α} (h : C _ task.run) : C _ (transaction n task).run :=
  parts.act_bind (parts.begin n) fun _ =>
    parts.act_bind (parts.outcome h) fun _ =>
      parts.act_bind (parts.outcome (parts.finish n _)) fun _ => parts.ofExcept _

theorem endTransaction (failure : Option Error) (rethrow : Bool) :
    C _ (endTransaction (σ := σ) n failure rethrow).run := by
  refine parts.act_bind (parts.outcome (parts.finish n failure)) fun closing => ?_
  split <;> exact parts.ofExcept _

theorem framed {sql : String} (h : admits sql) (transact : Bool) (params : List Json) :
    C _ (framed (σ := σ) n transact sql params).run := by
  unfold Session.framed
  split
  · exact parts.transaction n (parts.statement n h params)
  · exact parts.retained n (parts.statement n h params)

end Turns

theorem Statements.execWith (parts : Statements admits C) {sql : String} (h : admits sql)
    (params : List Json) (options : ExecOptions) :
    C _ (execWith (σ := σ) n sql params options).run := by
  refine parts.act_bind (parts.read _) fun session => ?_
  refine parts.act_bind (parts.announce n rfl) fun _ => ?_
  refine parts.act_bind (parts.outcome (parts.framed n h _ params)) fun outcome => ?_
  refine parts.act_bind (parts.announce n rfl) fun _ => ?_
  exact parts.act_bind (parts.ofExcept _) fun _ => parts.done _

end

/-- Tasks take no other steps than their turns do. -/
theorem turns_only {P : (World σ → World σ) → Prop}
    (performs : ∀ n (o : Operation), o.Admitted admits → P fun w => w.perform n o) :
    Turns admits fun _ (r : Routine (World σ) _) => r.Only P where
  toComposes := Routine.Only.composes P
  of_turn n t o ho ht := by
    have change : P fun w : World σ => (w.turn n t).2 := by
      simp only [World.turn_eq_perform ht]
      exact performs n o ho
    exact Routine.Only.holding (r := .step _ .done) ⟨change, fun _ => trivial⟩ _

abbrev Moves (admits : String → Prop) (task : Act (World σ) α) : Prop :=
  Routine.Only (World.Step admits) task.run

abbrev Steps (admits : String → Prop) (task : Act (World σ) α) : Prop :=
  Routine.Only (World.Change admits) task.run

theorem Moves.steps {task : Act (World σ) α} (h : Moves admits task) : Steps admits task :=
  Routine.Only.mono (fun _ => World.Step.change) h

/-- Statements and their frames take steps of sessions. -/
theorem moves :
    Statements admits fun _ (r : Routine (World σ) _) => r.Only (World.Step admits) where
  toTurns := turns_only fun n _ h => .operation n h
  read _ := ⟨.still, fun _ => trivial⟩
  announce n _ h := ⟨.announcement n h, fun _ => trivial⟩

end Session

namespace Plan
variable {σ α : Type} [Link σ] {admits : String → Prop} {task : Act (World σ) α}

/-- What the parts of a plan have, the plan has. -/
theorem composed {C : (α : Type) → Routine (World σ) α → Prop}
    (parts : Session.Statements admits C) (h : Plan admits task) : C _ task.run := by
  induction h with
  | ofExcept outcome => exact parts.ofExcept outcome
  | bind _ _ iht ihn => exact parts.act_bind iht ihn
  | outcome _ ih => exact parts.outcome ih
  | retain n => exact parts.retain n
  | release n => exact parts.release n
  | begin n => exact parts.begin n
  | endTransaction n failure rethrow => exact parts.endTransaction n failure rethrow
  | retained n _ ih => exact parts.retained n ih
  | transaction n _ ih => exact parts.transaction n ih
  | statement n params h => exact parts.statement n h params
  | execWith n params options h => exact parts.execWith n h params options
  | close n => exact parts.close n

/-- A plan takes admitted steps only. -/
theorem moves (h : Plan admits task) : Session.Moves admits task := h.composed Session.moves

end Plan

/-- What operations and changes aside of them keep holds in every order of the tasks' moves. -/
theorem Plan.invariant {σ α : Type} [Link σ] {admits : String → Prop} {Inv : World σ → Prop}
    (operation : ∀ w n (o : Operation), o.Admitted admits → Inv w → Inv (w.perform n o))
    (aside : ∀ w v, World.Aside w v → Inv w → Inv v) {w : World σ} (start : Inv w)
    {tasks : List (Act (World σ) α)} (plans : ∀ t ∈ tasks, Plan admits t) (schedule : List Nat) :
    Inv ((Crowd.start w tasks).follow schedule).world := by
  refine Crowd.follow_invariant (P := World.Change admits) ?_ ?_ start schedule
  · intro f hf v hv
    cases hf with
    | operation n ho => exact operation v n _ ho hv
    | aside h => exact aside v _ (h v) hv
  · intro t ht
    obtain ⟨task, hm, rfl⟩ := List.mem_map.mp ht
    exact (plans task hm).moves.steps

/-- No session has been used yet. -/
structure World.Fresh {σ : Type} (w : World σ) : Prop where
  calls : w.wire.calls = []
  number : ∀ n, (w.session n).number = n
  connection : ∀ n, (w.session n).connection = {}

end DataAccess
