import DataAccess.Proofs.Session.Plan
import DataAccess.Proofs.Session.Turn
import Mathlib.Logic.Relation

/-!
What the operations on a connection are made of. Each of them is a row of beats, so that what every
beat keeps is kept by all operations.
-/
namespace DataAccess.Scope
variable {σ : Type} [Link σ] {admits : String → Prop}

open Relation

/-- The least that happens to a session while it has its turn. Only callers whose SQL is admitted
send a COMMIT that ends no transaction of the session. -/
inductive Beat (admits : String → Prop) : Scope σ → Scope σ → Prop
  | undialed {s t : Scope σ} {e : Error} : s.dial = (.error e, t) → Beat admits s t
  | dialed {s t : Scope σ} {client : Nat} :
    s.connection.count = 0 → s.dial = (.ok client, t) →
      Beat admits s ((t.withConnection { s.connection with
        count := 1, client := some client }).publish .connected)
  | shared {s : Scope σ} {c : Connection} :
    c.client = s.connection.client → (0 < c.count ↔ 0 < s.connection.count) →
      (0 < c.depth ↔ 0 < s.connection.depth) → Beat admits s (s.withConnection c)
  | stated {s : Scope σ} {sql : String} (params : List Json) :
    (sql = "COMMIT" → admits sql) → Beat admits s (s.statement sql params).2
  | started {s : Scope σ} :
    0 < s.connection.count → s.connection.depth = 0 →
      Beat admits s ((s.withDepth 1).publish .startedTransaction)
  | ended {s : Scope σ} {sql : String} (error : Option String) :
    0 < s.connection.depth → sql = "COMMIT" ∨ sql = "ROLLBACK" →
      Beat admits s (((s.withDepth 0).command sql).2.publish (.endedTransaction error
        (sql == "COMMIT" && ((s.withDepth 0).command sql).1.isOk)))
  | disconnected {s : Scope σ} :
    0 < s.connection.count → s.connection.depth = 0 → Beat admits s s.disconnect

abbrev Beats (admits : String → Prop) : Scope σ → Scope σ → Prop := ReflTransGen (Beat admits)

theorem beats_retain (s : Scope σ) : Beats admits s s.retain.2 := by
  rcases retain_cases s with ⟨hp, hr⟩ | ⟨hz, ⟨t, ht, hr⟩ | ⟨e, t, ht, hr⟩⟩ <;> rw [hr]
  · exact .single (.shared rfl (by simp [hp]) Iff.rfl)
  · exact .single (.dialed hz ht)
  · exact .single (.undialed ht)

theorem beats_release (s : Scope σ) : Beats admits s s.release.2 := by
  rcases release_cases s with ⟨-, hr⟩ | ⟨hd, ⟨h1, hr⟩ | ⟨h1, hr⟩⟩
  · exact hr ▸ .refl
  · exact hr ▸ .single (.disconnected (by omega) (by omega))
  · exact hr ▸ .single (.shared rfl (by simp only; omega) Iff.rfl)

/-- A transaction is opened by statements that end none. -/
theorem beats_openTransaction (s : Scope σ) : Beats admits s s.openTransaction.2 :=
  openTransaction_keeps (fun _ _ hsql h => h.tail (.stated [] fun he => absurd he hsql)) .refl

theorem beats_begin (s : Scope σ) : Beats admits s s.begin.2 := by
  have hr : Beats admits s s.retain.2 := beats_retain s
  rcases begin_cases s with ⟨e, t, ht, hb⟩ | ⟨t, ht, ⟨hp, hb⟩ | ⟨hz, ho⟩⟩
  · rwa [hb, ← ht]
  · rw [ht] at hr
    exact hb ▸ hr.tail (.shared rfl Iff.rfl (by simp [hp]))
  rw [ht] at hr
  have hopen : Beats admits t t.openTransaction.2 := beats_openTransaction t
  have hconn := openTransaction_connection t
  have hcount := (retain_ok ht).1
  rcases ho with ⟨u, hu, hb⟩ | ⟨e, u, hu, hb⟩ <;> rw [hb] <;> rw [hu] at hopen hconn
  · exact (hr.trans hopen).tail (.started (by rw [hconn]; omega) (by rw [hconn, hz]))
  · exact (hr.trans hopen).trans (beats_release u)

theorem beat_endOutermost {s : Scope σ} (failure : Option Error) (h : 0 < s.connection.depth) :
    Beat admits s ((s.withDepth 0).endOutermost failure).2 := by
  cases hc : failure.isNone && s.session.config.commit with
  | true =>
    have ended : Beat admits s _ := .ended (failure.map Error.message) h (.inl rfl)
    simp only [endOutermost, withDepth, withConnection, hc]
    exact ended
  | false =>
    have ended : Beat admits s _ := .ended (failure.map Error.message) h (.inr rfl)
    simp only [endOutermost, withDepth, withConnection, hc]
    exact ended

theorem beats_finish (s : Scope σ) (failure : Option Error) :
    Beats admits s (s.finish failure).2 := by
  rcases finish_cases s failure with ⟨-, hf⟩ | ⟨h1, hf⟩ | ⟨depth, h2, hf⟩
  · exact hf ▸ .refl
  · exact hf ▸ .head (beat_endOutermost failure (by omega)) (beats_release _)
  · have inner : Beat admits s (s.withDepth (depth + 1)) := .shared rfl Iff.rfl (by simp [h2])
    exact hf ▸ .head inner (beats_release _)

theorem beats_close (s : Scope σ) : Beats admits s s.close.2 := by
  obtain ⟨t, ht, hc⟩ := close_cases s
  have hst : Beats admits s t ∧ t.connection.depth = 0 := by
    rcases ht with ⟨hz, ht⟩ | ⟨hp, ht⟩ <;> rw [ht]
    · exact ⟨.refl, hz⟩
    · exact ⟨.single (.ended _ hp (.inr rfl)),
        congrArg Connection.depth (command_connection (s.withDepth 0) "ROLLBACK")⟩
  rw [hc]
  split_ifs with hp
  · exact hst.1.tail (.disconnected hp hst.2)
  · exact hst.1

theorem beats_on {o : Operation} (ho : o.Admitted admits) (s : Scope σ) :
    Beats admits s (o.on s) := by
  cases o with
  | retain => exact beats_retain s
  | release => exact beats_release s
  | begin => exact beats_begin s
  | finish failure => exact beats_finish s failure
  | statement sql params => exact .single (.stated params fun _ => ho)
  | close => exact beats_close s

/-- What every beat keeps is kept by every operation. -/
theorem on_invariant {P : Scope σ → Prop} (beat : ∀ s t, Beat admits s t → P s → P t)
    {o : Operation} (ho : o.Admitted admits) {s : Scope σ} (h : P s) : P (o.on s) := by
  have run (t : Scope σ) (ht : Beats admits s t) : P t := by
    induction ht with
    | refl => exact h
    | tail _ hb ih => exact beat _ _ hb ih
  exact run _ (beats_on ho s)

end DataAccess.Scope
