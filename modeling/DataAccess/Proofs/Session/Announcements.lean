import DataAccess.Proofs.Session.Beat

/-!
What a session announces of statements that find a connection for themselves. Operations on the
connection announce nothing; a statement is announced before and told of after, whatever fails.
-/
namespace DataAccess

def Session.announcements (s : Session) : List Event := s.events.filter Event.isAnnouncement

theorem Session.announcements_publish (s : Session) (e : Event) :
    (s.publish e).announcements = s.announcements ++ if e.isAnnouncement then [e] else [] := by
  rw [announcements, publish, List.filter_append]
  cases h : e.isAnnouncement <;> simp [h, announcements]

def World.announced {σ : Type} (n : Nat) (w v : World σ) : List Event :=
  (v.session n).announcements.drop (w.session n).announcements.length

namespace Scope
variable {σ : Type} [Link σ] {admits : String → Prop}

theorem Beat.announcements_eq {s t : Scope σ} (h : Beat admits s t) :
    t.session.announcements = s.session.announcements := by
  have quiet (u : Scope σ) {e : Event} (he : e.isAnnouncement = false) :
      (u.publish e).session.announcements = u.session.announcements := by
    simp [publish, Session.announcements_publish, he]
  have stated (u : Scope σ) (sql : String) (params : List Json) :
      (u.statement sql params).2.session.announcements = u.session.announcements := by
    rcases statement_cases u sql params with ⟨-, hu⟩ | ⟨client, answer, v, -, hu, hv, -⟩ <;>
      rw [hu]
    rw [hv]
    rfl
  cases h with
  | undialed hd => rw [(dial_error hd).1]
  | dialed hz hd =>
    obtain ⟨-, hs, -⟩ := dial_ok hd
    rw [quiet _ rfl, ← hs]
    rfl
  | shared => rfl
  | stated params _ => exact stated s _ params
  | started => exact quiet _ rfl
  | ended error _ _ => exact (quiet _ rfl).trans (stated (s.withDepth 0) _ [])
  | disconnected =>
    unfold disconnect
    split <;> exact quiet _ rfl

theorem announcements_on (o : Operation) (s : Scope σ) :
    (o.on s).session.announcements = s.session.announcements :=
  on_invariant (P := fun t => t.session.announcements = s.session.announcements)
    (fun _ _ hb h => hb.announcements_eq.trans h) o.admitted_all rfl

end Scope

namespace World
variable {σ : Type}

@[simp] theorem announced_self (w : World σ) (n : Nat) : w.announced n w = [] :=
  List.drop_length

theorem announced_publish (n m : Nat) (w : World σ) {e : Event} (h : e.isAnnouncement = true) :
    w.announced m (w.publish n e) = if n = m then [e] else [] := by
  rw [announced, publish, session_putSession]
  split_ifs with hm
  · subst hm
    simp [Session.announcements_publish, h]
  · simp

theorem announced_perform [Link σ] (n m : Nat) (w : World σ) (o : Operation) :
    w.announced m (w.perform n o) = [] := by
  have same : ((w.perform n o).session m).announcements = (w.session m).announcements := by
    by_cases hm : n = m
    · subst hm
      rw [perform_session, Scope.announcements_on]
      rfl
    · rw [perform_session_ne w hm]
  rw [announced, same, List.drop_length]

end World

namespace Act
variable {W α β E : Type} {emit : W → W → List E} {es fs : List E}

/-- A first step that cannot fail. -/
theorem emits_step_bind {f : W → Except Error α × W} {next : α → Act W β}
    (h : ∀ w, ∃ a, (f w).1 = .ok a ∧ emit w (f w).2 = es ∧ Routine.Emits emit (next a).run fs) :
    Routine.Emits emit (step f >>= next).run (es ++ fs) := by
  refine ⟨es, fs, rfl, fun w => ?_⟩
  obtain ⟨a, ha, he, hn⟩ := h w
  refine ⟨he, ?_⟩
  rw [ha]
  exact hn

/-- What comes after a task goes on whether or not the task has failed. -/
theorem emits_outcome_bind {task : Act W α} {next : Except Error α → Act W β}
    (ht : Routine.Emits emit task.run es) (hn : ∀ o, Routine.Emits emit (next o).run fs) :
    Routine.Emits emit (task.outcome >>= next).run (es ++ fs) := by
  have flat : (task.outcome >>= next).run = task.run.bind fun o => (next o).run :=
    Routine.bind_assoc ..
  exact flat ▸ ht.bind hn

end Act

namespace Session
variable {σ : Type} [Link σ]

/-- A statement is announced once, and told of once, whatever becomes of it. -/
theorem emits_execWith (n m : Nat) (sql : String) (params : List Json) (options : ExecOptions) :
    Routine.Emits (World.announced m) (execWith (σ := σ) n sql params options).run
      (if n = m then [.preQuery sql params, .query sql params] else []) := by
  have parts : (if n = m then [Event.preQuery sql params, .query sql params] else []) =
      [] ++ ((if n = m then [.preQuery sql params] else []) ++
        ([] ++ ((if n = m then [.query sql params] else []) ++ []))) := by
    split_ifs <;> rfl
  have framed (transact : Bool) :
      Routine.Emits (World.announced m) (framed (σ := σ) n transact sql params).run [] :=
    Routine.Only.emits ((turns_only fun k o (_ : o.Admitted fun _ => True) w =>
      w.announced_perform k m o).framed n trivial transact params)
  rw [parts]
  refine Act.emits_step_bind fun w => ⟨_, rfl, w.announced_self m, ?_⟩
  refine Act.emits_step_bind fun w => ⟨(), rfl, w.announced_publish n m rfl, ?_⟩
  refine Act.emits_outcome_bind (framed _) fun outcome => ?_
  refine Act.emits_step_bind fun w => ⟨(), rfl, w.announced_publish n m rfl, ?_⟩
  cases outcome <;> rfl

end Session
end DataAccess
