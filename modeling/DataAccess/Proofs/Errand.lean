import DataAccess.Proofs.Activity
import DataAccess.Proofs.Session.Beat
import DataAccess.Proofs.Session.Gates

/-!
Tasks of users that have nothing to do with caches. They enter the gates of catalogues and of
connections only, and whatever is cached is as it was after every step of theirs.
-/
namespace DataAccess
open Session (Statements)
variable {σ α : Type} {commits : Prop}

section
variable [Link σ]

/-- Tasks made of operations of sessions, look-ups of column types and queries, one after the
other, with any control flow between them. -/
inductive Errand {σ : Type} [Link σ] (commits : Prop) : {α : Type} → Act (World σ) α → Prop
  | plan {α : Type} {task : Act (World σ) α} :
    Plan (CallersCommit commits) task → Errand commits task
  | bind {α β : Type} {task : Act (World σ) α} {next : α → Act (World σ) β} :
    Errand commits task → (∀ a, Errand commits (next a)) → Errand commits (task >>= next)
  | outcome {α : Type} {task : Act (World σ) α} :
    Errand commits task → Errand commits task.outcome
  | read {α : Type} (f : World σ → α) : Errand commits (.read f)
  | retained {α : Type} (n : Nat) {task : Act (World σ) α} :
    Errand commits task → Errand commits (Session.retained n task)
  | transaction {α : Type} (n : Nat) {task : Act (World σ) α} :
    Errand commits task → Errand commits (Session.transaction n task)
  | ensure (n : Nat) (tables : List String) : Errand commits (Schema.ensure n tables)
  | forget (n : Nat) (table : String) : Errand commits (Schema.forget n table)
  | toSql (n : Nat) (d : Draft) : Errand commits (d.toSql n)
  | execute (n : Nat) (d : Draft) : Errand commits (d.execute n)
  | count (n : Nat) (d : Draft) (key : Option String) : Errand commits (d.count n key)
  | sum (n : Nat) (d : Draft) (key : String) : Errand commits (d.sum n key)

/-- What all has that users can have done without caches, an errand has. -/
theorem Errand.composed {C : (α : Type) → Routine (World σ) α → Prop} (parts : Errands commits C)
    {task : Act (World σ) α} (h : Errand commits task) : C _ task.run := by
  induction h with
  | plan h => exact h.composed parts.toStatements
  | bind _ _ iht ihn => exact parts.act_bind iht ihn
  | outcome _ ih => exact parts.outcome ih
  | read f => exact parts.read f
  | retained n _ ih => exact parts.retained n ih
  | transaction n _ ih => exact parts.transaction n ih
  | ensure n tables => exact parts.ensure n tables
  | forget n table => exact parts.forget n table
  | toSql n d => exact parts.toSql n d
  | execute n d => exact parts.execute n d
  | count n d key => exact parts.count n d key
  | sum n d key => exact parts.sum n d key

/-- Statements enter the gates of connections only. -/
theorem orderly_statements {admits : String → Prop} {low : Nat} (h : low ≤ 2) :
    Statements (σ := σ) admits fun _ r => r.Orderly low where
  toComposes := Routine.Orderly.composes low
  of_turn n t o _ _ := by
    have turn := Routine.Orderly.holding (.connection n)
      (Routine.orderly_step 3 fun w : World σ => w.turn n t)
    exact turn.mono h
  read _ := Routine.orderly_step low _
  announce _ _ _ := Routine.orderly_step low _

/-- While a catalogue is looked up, the gate of a connection is entered, which is above its own. -/
theorem orderly_ensure (n : Nat) (tables : List String) :
    (Schema.ensure (σ := σ) n tables).run.Orderly 1 := by
  have outer : Statements (σ := σ) (fun _ => True) fun _ r => r.Orderly 1 :=
    orderly_statements (by decide)
  have inner : Statements (σ := σ) (fun _ => True) fun _ r => r.Orderly 2 :=
    orderly_statements le_rfl
  refine outer.act_bind (outer.read _) fun session => ?_
  apply Routine.Orderly.holding (.catalogue session.database.catalogue)
  refine inner.act_bind ?_ fun _ => inner.read _
  exact inner.ensureTables trivial (fun _ _ => Routine.orderly_step 2 _) n tables

theorem orderly_forget (n : Nat) (table : String) :
    (Schema.forget (σ := σ) n table).run.Orderly 1 := by
  have outer : Statements (σ := σ) (fun _ => True) fun _ r => r.Orderly 1 :=
    orderly_statements (by decide)
  refine outer.act_bind (outer.read _) fun session => ?_
  apply Routine.Orderly.holding (.catalogue session.database.catalogue)
  exact Routine.orderly_step 2 _

/-- Whoever goes on an errand may hold caches. -/
theorem orderly_errands :
    Errands (σ := σ) commits fun _ r => r.Orderly 1 where
  toStatements := orderly_statements (by decide)
  ensure := orderly_ensure
  forget := orderly_forget

end

structure World.SameStock (w v : World σ) : Prop where
  caches : ∀ n, (v.session n).caches = (w.session n).caches
  hits : ∀ n, (v.session n).hits = (w.session n).hits

namespace World

theorem SameStock.refl (w : World σ) : w.SameStock w := ⟨fun _ => rfl, fun _ => rfl⟩

theorem SameStock.trans {w v u : World σ} (first : w.SameStock v) (rest : v.SameStock u) :
    w.SameStock u where
  caches n := (rest.caches n).trans (first.caches n)
  hits n := (rest.hits n).trans (first.hits n)

theorem sameStock_publish (w : World σ) (n : Nat) (e : Event) : w.SameStock (w.publish n e) := by
  have same (m : Nat) : ((w.publish n e).session m).caches = (w.session m).caches ∧
      ((w.publish n e).session m).hits = (w.session m).hits := by
    rw [publish, session_putSession]
    split_ifs with hm
    · exact hm ▸ ⟨rfl, rfl⟩
    · exact ⟨rfl, rfl⟩
  exact ⟨fun m => (same m).1, fun m => (same m).2⟩

end World

variable [Link σ]

theorem Scope.Beat.sameStock {admits : String → Prop} {s t : Scope σ} (h : Beat admits s t) :
    t.session.caches = s.session.caches ∧ t.session.hits = s.session.hits := by
  have stated (s : Scope σ) (sql : String) (params : List Json) :
      (s.statement sql params).2.session.caches = s.session.caches ∧
        (s.statement sql params).2.session.hits = s.session.hits := by
    rcases statement_cases s sql params with ⟨-, hs⟩ | ⟨_, _, t, -, hs, ht, -⟩ <;> rw [hs]
    · exact ⟨rfl, rfl⟩
    · rw [ht]
      exact ⟨rfl, rfl⟩
  cases h with
  | undialed hd =>
    rw [(dial_error hd).1]
    exact ⟨rfl, rfl⟩
  | dialed _ hd =>
    have dialed := (dial_ok hd).2.1
    exact ⟨(congrArg Session.caches dialed :), (congrArg Session.hits dialed :)⟩
  | shared => exact ⟨rfl, rfl⟩
  | stated params => exact stated s _ params
  | started => exact ⟨rfl, rfl⟩
  | ended => exact stated (s.withDepth 0) _ []
  | disconnected =>
    unfold disconnect
    split <;> exact ⟨rfl, rfl⟩

theorem World.sameStock_perform (w : World σ) (n : Nat) (o : Operation) :
    w.SameStock (w.perform n o) := by
  have kept : (o.on (w.scope n)).session.caches = (w.session n).caches ∧
      (o.on (w.scope n)).session.hits = (w.session n).hits := by
    refine Scope.on_invariant (P := fun t => t.session.caches = (w.session n).caches ∧
      t.session.hits = (w.session n).hits) ?_ o.admitted_all ⟨rfl, rfl⟩
    intro s t hb ⟨caches, hits⟩
    exact ⟨hb.sameStock.1.trans caches, hb.sameStock.2.trans hits⟩
  exact ⟨perform_same kept.1, perform_same kept.2⟩

/-- Every step of the task leaves all that is cached as it is. -/
abbrev Sparing (r : Routine (World σ) α) : Prop := r.Only fun f => ∀ w, World.SameStock w (f w)

theorem sparing_statements (admits : String → Prop) :
    Statements (σ := σ) admits fun _ r => Sparing r where
  toTurns := Session.turns_only fun n o _ w => w.sameStock_perform n o
  read _ := ⟨.refl, fun _ => trivial⟩
  announce n e _ := ⟨fun w => w.sameStock_publish n e, fun _ => trivial⟩

/-- Errands leave all that is cached as it is. -/
theorem sparing_errands :
    Errands (σ := σ) commits fun _ r => Sparing r := by
  have statements := sparing_statements (σ := σ) fun _ => True
  have put (w : World σ) (c : Nat) (tables : Schema) : w.SameStock (w.putCatalogue c tables) :=
    ⟨fun _ => rfl, fun _ => rfl⟩
  refine ⟨sparing_statements _, fun n tables => ?_, fun n table => ?_⟩
  · refine statements.act_bind (statements.read _) fun session => Routine.Only.holding ?_ _
    refine statements.act_bind ?_ fun _ => statements.read _
    apply statements.ensureTables trivial
    exact fun table columns => ⟨fun w => put w _ _, fun _ => trivial⟩
  · refine statements.act_bind (statements.read _) fun session => ?_
    exact Routine.Only.holding (r := .step _ .done) ⟨fun w => put w _ _, fun _ => trivial⟩ _

theorem Errand.start_sameStock {task : Act (World σ) α} (h : Errand commits task) (w : World σ) :
    w.SameStock (task.start w).2 :=
  (h.composed sparing_errands).run World.SameStock.refl World.SameStock.trans (fun _ hf w => hf w) w

end DataAccess
