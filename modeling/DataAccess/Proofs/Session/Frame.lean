import DataAccess.Proofs.Session.Beat

/-!
What an operation leaves alone. It asks the link in the name of its own session, about the
connection of that session or a new one, and changes neither the number nor the settings nor the
database.
-/
namespace DataAccess

def Call.session? : Call → Option Nat
  | .connect session _ => some session
  | .query session _ _ _ _ => some session
  | .release session _ => some session
  | _ => none

def Call.client? : Call → Option Nat
  | .query _ client _ _ _ => some client
  | .release _ client => some client
  | _ => none

namespace Scope
variable {σ : Type}

/-- A call that the session may make as things stand: in its own name, and about a connection
that is its own or not yet open. -/
def Makes (s : Scope σ) (x : Call) : Prop :=
  (∀ n, x.session? = some n → n = s.session.number) ∧
    ∀ c, x.client? = some c → s.connection.client = some c ∨ s.wire.opened < c

structure Leads (s t : Scope σ) : Prop where
  number : t.session.number = s.session.number
  config : t.session.config = s.session.config
  database : t.session.database = s.session.database
  client : ∀ c, t.connection.client = some c → s.connection.client = some c ∨ s.wire.opened < c
  calls : ∃ more, t.wire.calls = s.wire.calls ++ more ∧ ∀ x ∈ more, s.Makes x

theorem Leads.refl (s : Scope σ) : s.Leads s :=
  ⟨rfl, rfl, rfl, fun _ h => .inl h, [], by simp⟩

theorem Leads.opened {s t : Scope σ} (h : s.Leads t) : s.wire.opened ≤ t.wire.opened := by
  obtain ⟨more, hm, -⟩ := h.calls
  simp [Wire.opened, hm]

theorem Leads.trans {s t u : Scope σ} (h : s.Leads t) (k : t.Leads u) : s.Leads u := by
  have origin {c : Nat} (hc : t.connection.client = some c ∨ t.wire.opened < c) :
      s.connection.client = some c ∨ s.wire.opened < c :=
    hc.elim (h.client c) fun hc => .inr (Nat.lt_of_le_of_lt h.opened hc)
  refine ⟨k.number.trans h.number, k.config.trans h.config, k.database.trans h.database,
    fun c hc => origin (k.client c hc), ?_⟩
  obtain ⟨more, hm, hs⟩ := h.calls
  obtain ⟨later, hl, ht⟩ := k.calls
  refine ⟨more ++ later, by rw [hl, hm, List.append_assoc], fun x hx => ?_⟩
  rcases List.mem_append.mp hx with hx | hx
  · exact hs x hx
  · exact ⟨fun n hn => ((ht x hx).1 n hn).trans h.number, fun c hc => origin ((ht x hx).2 c hc)⟩

theorem leads_withConnection (s : Scope σ) {c : Connection}
    (h : ∀ client, c.client = some client → s.connection.client = some client) :
    s.Leads (s.withConnection c) :=
  ⟨rfl, rfl, rfl, fun client hc => .inl (h client hc), [], by simp [withConnection]⟩

theorem leads_publish (s : Scope σ) (e : Event) : s.Leads (s.publish e) :=
  ⟨rfl, rfl, rfl, fun _ h => .inl h, [], by simp [publish]⟩

theorem leads_answered (s : Scope σ) (link : σ) {x : Call} (h : s.Makes x) :
    s.Leads (s.answered link x) :=
  ⟨rfl, rfl, rfl, fun _ hc => .inl hc, [x], rfl, by simpa using h⟩

theorem leads_withDepth (s : Scope σ) (depth : Nat) : s.Leads (s.withDepth depth) :=
  leads_withConnection s fun _ h => h

variable [Link σ]

theorem leads_dial (s : Scope σ) : s.Leads s.dial.2 := by
  have made (delay : Duration) (k : Nat) (accepted : Bool) :
      ∀ x ∈ Call.failedTries s.session.number delay k ++ [.connect s.session.number accepted],
        s.Makes x :=
    Call.forall_tries (by simp [Makes, Call.session?, Call.client?])
      (by simp [Makes, Call.session?, Call.client?]) k accepted
  have step {t : Scope σ} (hs : t.session = s.session) {delay : Duration} {k : Nat}
      {accepted : Bool} (hc : t.wire.calls = s.wire.calls ++
        (Call.failedTries s.session.number delay k ++ [.connect s.session.number accepted])) :
      s.Leads t :=
    ⟨by rw [hs], by rw [hs], by rw [hs], fun c h => .inl (by rwa [connection, hs] at h), _, hc,
      made _ _ _⟩
  rcases hd : s.dial with ⟨e | client, t⟩
  · obtain ⟨hs, k, hc⟩ := dial_error hd
    exact step hs hc
  · obtain ⟨-, hs, k, hc⟩ := dial_ok hd
    exact step hs hc

theorem leads_disconnect (s : Scope σ) : s.Leads s.disconnect := by
  unfold disconnect
  split
  next client hc =>
    refine ((leads_answered s _ ⟨?_, ?_⟩).trans (leads_withConnection _ ?_)).trans
      (leads_publish _ _)
    · simp [Call.session?]
    · simp [Call.client?, hc]
    · simp
  next => exact (leads_withConnection s (by simp)).trans (leads_publish _ _)

theorem leads_statement (s : Scope σ) (sql : String) (params : List Json) :
    s.Leads (s.statement sql params).2 := by
  rcases statement_cases s sql params with ⟨-, hs⟩ | ⟨client, answer, t, hc, hs, ht, hw⟩ <;> rw [hs]
  · exact .refl s
  · refine ⟨by rw [ht]; rfl, by rw [ht]; rfl, by rw [ht]; rfl, fun c h => .inl ?_, _, hw, ?_⟩
    · rwa [connection, ht] at h
    · simp [Makes, Call.session?, Call.client?, hc]

theorem leads_command (s : Scope σ) (sql : String) : s.Leads (s.command sql).2 :=
  leads_statement s sql []

variable {admits : String → Prop}

theorem Beat.leads {s t : Scope σ} (h : Beat admits s t) : s.Leads t := by
  cases h with
  | undialed hd => simpa only [hd] using leads_dial s
  | @dialed t client hz hd =>
    have dialed : s.Leads t := by simpa only [hd] using leads_dial s
    obtain ⟨rfl, -, -⟩ := dial_ok hd
    refine ⟨dialed.number, dialed.config, dialed.database, fun c h => .inr ?_, dialed.calls⟩
    cases h
    exact Nat.lt_succ_self _
  | shared hc => exact leads_withConnection s fun _ h => hc ▸ h
  | stated params _ => exact leads_statement s _ params
  | started => exact (leads_withDepth s 1).trans (leads_publish _ _)
  | ended error _ _ =>
    exact ((leads_withDepth s 0).trans (leads_command _ _)).trans (leads_publish _ _)
  | disconnected => exact leads_disconnect s

theorem Beats.leads {s t : Scope σ} (h : Beats admits s t) : s.Leads t := by
  induction h with
  | refl => exact .refl s
  | tail _ hb ih => exact ih.trans hb.leads

theorem leads_release (s : Scope σ) : s.Leads s.release.2 := by
  have released : Beats (fun _ => True) s s.release.2 := beats_release s
  exact released.leads

theorem leads_on (o : Operation) (s : Scope σ) : s.Leads (o.on s) :=
  Beats.leads (beats_on o.admitted_all s)

end Scope

/-- An operation leaves every session on its database. -/
theorem World.perform_database {σ : Type} [Link σ] (w : World σ) (n : Nat) (o : Operation)
    (m : Nat) : ((w.perform n o).session m).database = (w.session m).database :=
  perform_same (Scope.leads_on o (w.scope n)).database m

end DataAccess
