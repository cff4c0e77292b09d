import DataAccess.Proofs.Session.Asked

/-!
A statement that finds a connection for itself. Either its opening is refused and users have asked
for nothing, or it is the one thing that is asked for.
-/
namespace DataAccess

/-- What each change keeps is kept by a task that has the world for itself. -/
theorem Routine.Only.run {W α : Type} {P : (W → W) → Prop} {R : W → W → Prop}
    (refl : ∀ w, R w w) (trans : ∀ {u v w}, R u v → R v w → R u w)
    (step : ∀ f, P f → ∀ w, R w (f w)) {r : Routine W α} (hr : r.Only P) (w : W) :
    R w (r.run w).2 := by
  induction r generalizing w with
  | done a => exact refl w
  | step change next ih => exact trans (step _ hr.1 w) (ih _ (hr.2 _) _)
  | enter gate next ih => exact ih hr w
  | leave gate next ih => exact ih hr w

/-- Of the sessions neither the settings nor the databases have changed from `w` to `v`, and of the
calls none is lost. -/
structure World.Later {σ : Type} (w v : World σ) : Prop where
  config : ∀ n, (v.session n).config = (w.session n).config
  database : ∀ n, (v.session n).database = (w.session n).database
  calls : w.wire.calls <+: v.wire.calls

namespace World
variable {σ : Type} {u v w : World σ}

theorem Later.refl (w : World σ) : w.Later w :=
  ⟨fun _ => rfl, fun _ => rfl, List.prefix_refl _⟩

theorem Later.trans (h : w.Later v) (k : v.Later u) : w.Later u :=
  ⟨fun n => (k.config n).trans (h.config n), fun n => (k.database n).trans (h.database n),
    h.calls.trans k.calls⟩

theorem Later.asks (h : w.Later v) : ∃ more, w.wire.Asks v.wire more := by
  obtain ⟨calls, hc⟩ := h.calls
  exact ⟨_, calls, hc.symm, rfl⟩

theorem Aside.later (h : w.Aside v) : w.Later v :=
  ⟨h.config, h.database, h.wire ▸ List.prefix_refl _⟩

theorem Aside.asks (h : w.Aside v) : w.wire.Asks v.wire [] :=
  Wire.asks_of_calls_eq (congrArg Wire.calls h.wire)

theorem Aside.sound (h : w.Aside v) {n : Nat} (hw : (w.scope n).connection.Sound) :
    (v.scope n).connection.Sound := by
  have same : (v.scope n).connection = (w.scope n).connection := h.connection n
  rwa [same]

variable [Link σ]

theorem perform_later (w : World σ) (n : Nat) (o : Operation) : w.Later (w.perform n o) := by
  have leads := Scope.leads_on o (w.scope n)
  have kept (m : Nat) : ((w.perform n o).session m).config = (w.session m).config ∧
      ((w.perform n o).session m).database = (w.session m).database := by
    by_cases hm : n = m
    · subst hm
      rw [perform_session]
      exact ⟨leads.config, leads.database⟩
    · rw [perform_session_ne w hm]
      exact ⟨rfl, rfl⟩
  obtain ⟨more, hc, -⟩ := leads.calls
  exact ⟨fun m => (kept m).1, fun m => (kept m).2, more, hc.symm⟩

end World

namespace Session
variable {σ α : Type} [Link σ] {n : Nat}

theorem Steps.later {admits : String → Prop} {task : Act (World σ) α} (h : Steps admits task)
    (w : World σ) : w.Later (task.start w).2 := by
  refine Routine.Only.run (R := World.Later) World.Later.refl World.Later.trans ?_ h w
  intro f hf w
  cases hf with
  | operation m _ => exact w.perform_later m _
  | aside ha => exact (ha w).later

/-- The settings alone decide how rows are named. -/
theorem converted_congr {s t : Session} (h : s.config = t.config) : s.converted = t.converted := by
  funext row
  rw [converted, converted, h]

omit [Link σ] in
theorem start_look (n : Nat) (w : World σ) : (look n).start w = (.ok (w.session n), w) := rfl

theorem start_execWith {sql : String} {params : List Json} (options : ExecOptions)
    {w v : World σ} {outcome : Except Error (List Record)}
    (h : (framed n (options.transaction || (w.session n).config.alwaysTransact) sql params).start
      (w.publish n (.preQuery sql params)) = (outcome, v)) :
    (execWith n sql params options).start w =
      (outcome.map fun rows => .shape options.first
        (if options.raw then rows else rows.map (w.session n).converted),
        v.publish n (.query sql params)) := by
  have announced (v : World σ) (e : Event) : (announce n e).start v = (.ok (), v.publish n e) := rfl
  have ran := Act.start_outcome
    (framed n (options.transaction || (w.session n).config.alwaysTransact) sql params)
    (w.publish n (.preQuery sql params))
  rw [h] at ran
  unfold execWith
  rw [Act.start_bind_ok (start_look n w), Act.start_bind_ok (announced w _), Act.start_bind_ok ran,
    Act.start_bind_ok (announced v _)]
  cases outcome <;> rfl

/-- A statement between an opening and a closing step that ask for nothing themselves. -/
theorem asks_between {w : World σ} {opening : Act (World σ) Unit}
    {closing : Except Error (List Record) → Act (World σ) Unit} {call : Act (World σ) (List Record)}
    {sql : String} {params : List Json} (hq : isOwn sql = false)
    (frame : Act.Framed opening closing (statement n sql params) call)
    (refused : ∀ e u, opening.start w = (.error e, u) → (w.scope n).Refused (u.scope n) e)
    (opened : ∀ u, opening.start w = (.ok (), u) →
      w.wire.Asks u.wire [] ∧ (u.scope n).connection.client.isSome)
    (closed : ∀ (v : World σ) outcome, v.wire.Asks ((closing outcome).start v).2.wire []) :
    (∃ e, (call.start w).1 = .error e ∧ (w.scope n).Refused ((call.start w).2.scope n) e) ∨
      w.wire.Asks (call.start w).2.wire [(sql, params)] := by
  rcases ho : opening.start w with ⟨e | _, u⟩
  · refine .inl ⟨e, ?_⟩
    rw [frame.refused ho]
    exact ⟨rfl, refused e u ho⟩
  · obtain ⟨quiet, connected⟩ := opened u ho
    have asks : u.wire.Asks ((statement n sql params).start u).2.wire [(sql, params)] := by
      rw [start_statement]
      exact Scope.asks_statement connected hq params
    rw [frame.world ho]
    exact .inr (quiet.quiet_trans (asks.trans_quiet (closed _ _)))

omit [Link σ] in
theorem connected_of_enters {s t : Scope σ} {depth : Nat} (hs : s.connection.Sound)
    (h : s.Enters t depth) (hd : depth ≤ s.connection.count + 1) :
    t.connection.client.isSome := by
  refine (h.sound hs hd).held.mpr ?_
  rw [h.connection]
  exact Nat.succ_pos _

theorem framed_asks {w : World σ} (hs : (w.scope n).connection.Sound) (transact : Bool)
    {sql : String} (hq : isOwn sql = false) (params : List Json) :
    (∃ e, ((framed n transact sql params).start w).1 = .error e ∧
      (w.scope n).Refused (((framed n transact sql params).start w).2.scope n) e) ∨
      w.wire.Asks ((framed n transact sql params).start w).2.wire [(sql, params)] := by
  cases transact with
  | true =>
    refine asks_between hq (framed_transaction n _) (fun e u h => ?_) (fun u h => ?_)
      (fun v outcome => ?_)
    · obtain ⟨he, rfl⟩ := Prod.ext_iff.mp ((start_begin n w).symm.trans h)
      rw [World.perform_scope]
      exact Scope.refused_begin hs (Prod.ext he rfl)
    · obtain ⟨ho, rfl⟩ := Prod.ext_iff.mp ((start_begin n w).symm.trans h)
      refine ⟨Scope.asks_begin (w.scope n), ?_⟩
      rw [World.perform_scope]
      exact connected_of_enters hs (Scope.enters_begin (Prod.ext ho rfl))
        (Nat.succ_le_succ hs.depth_le)
    · rw [start_finish]
      exact Scope.asks_finish (v.scope n) _
  | false =>
    refine asks_between hq (framed_retained n _) (fun e u h => ?_) (fun u h => ?_)
      (fun v outcome => ?_)
    · obtain ⟨he, rfl⟩ := Prod.ext_iff.mp ((start_retain n w).symm.trans h)
      rw [World.perform_scope]
      exact Scope.refused_retain (Prod.ext he rfl)
    · obtain ⟨ho, rfl⟩ := Prod.ext_iff.mp ((start_retain n w).symm.trans h)
      refine ⟨Scope.asks_retain (w.scope n), ?_⟩
      rw [World.perform_scope]
      exact connected_of_enters hs (Scope.enters_retain (Prod.ext ho rfl))
        (Nat.le_succ_of_le hs.depth_le)
    · rw [start_release]
      exact Scope.asks_release (v.scope n)

/-- Either the opening is refused, or the statement is what is asked for. -/
theorem execWith_asks {w : World σ} (hs : (w.scope n).connection.Sound) {sql : String}
    (hq : isOwn sql = false) (params : List Json) (options : ExecOptions) :
    (∃ e, ((execWith n sql params options).start w).1 = .error e ∧
      (w.scope n).Refused (((execWith n sql params options).start w).2.scope n) e) ∨
      w.wire.Asks ((execWith n sql params options).start w).2.wire [(sql, params)] := by
  have before := w.publish_aside n (.preQuery sql params)
  have run := framed_asks (before.sound hs)
    (options.transaction || (w.session n).config.alwaysTransact) hq params
  rcases hr : (framed n (options.transaction || (w.session n).config.alwaysTransact) sql
    params).start (w.publish n (.preQuery sql params)) with ⟨outcome, v⟩
  rw [start_execWith options hr]
  rw [hr] at run
  rcases run with ⟨e, he, refused⟩ | asks
  · exact .inl ⟨e, congrArg (Except.map _) he, refused.asks, refused.refusal⟩
  · exact .inr asks

end Session
end DataAccess
