import DataAccess.Proofs.Session.Bracketing

/-!
How the transaction of a session ends on the server, and what is told of it. The operation that
ends the outermost transaction decides alone: what has failed inside it is not remembered.
-/
namespace DataAccess

/-- What an event tells of the end of a transaction: the error, and whether changes were kept. -/
def Event.ending? : Event → Option (Option String × Bool)
  | endedTransaction error committed => some (error, committed)
  | _ => none

def Session.endings (s : Session) : List (Option String × Bool) :=
  s.events.filterMap Event.ending?

namespace Scope
variable {σ : Type}

def Tells (s t : Scope σ) (told : List (Option String × Bool)) : Prop :=
  t.session.endings = s.session.endings ++ told

theorem Tells.refl (s : Scope σ) : s.Tells s [] := (List.append_nil _).symm

theorem Tells.trans {s t u : Scope σ} {told more : List (Option String × Bool)}
    (h : s.Tells t told) (k : t.Tells u more) : s.Tells u (told ++ more) := by
  unfold Tells at *
  rw [k, h, List.append_assoc]

theorem tells_of_events {s t : Scope σ} (h : t.session.events = s.session.events) :
    s.Tells t [] := by
  rw [Tells, Session.endings, h, List.append_nil]
  rfl

theorem tells_publish (s : Scope σ) (e : Event) : s.Tells (s.publish e) e.ending?.toList := by
  show (s.session.events ++ [e]).filterMap Event.ending? = _
  rw [List.filterMap_append]
  cases h : e.ending? <;> simp [Session.endings, h]

variable [Link σ]

theorem tells_statement (s : Scope σ) (sql : String) (params : List Json) :
    s.Tells (s.statement sql params).2 [] := by
  rcases statement_cases s sql params with ⟨-, hs⟩ | ⟨client, answer, t, -, hs, ht, -⟩ <;> rw [hs]
  · exact .refl s
  · exact tells_of_events (by rw [ht]; rfl)

theorem tells_disconnect (s : Scope σ) : s.Tells s.disconnect [] := by
  unfold disconnect
  split <;> exact tells_publish _ .disconnected

theorem tells_release (s : Scope σ) : s.Tells s.release.2 [] := by
  rcases release_cases s with ⟨-, hr⟩ | ⟨-, ⟨-, hr⟩ | ⟨-, hr⟩⟩ <;> rw [hr]
  · exact .refl s
  · exact tells_disconnect s
  · exact tells_of_events rfl

theorem tells_retain (s : Scope σ) : s.Tells s.retain.2 [] := by
  rcases retain_cases s with ⟨-, hr⟩ | ⟨-, ⟨t, ht, hr⟩ | ⟨e, t, ht, hr⟩⟩ <;> rw [hr]
  · exact tells_of_events rfl
  · obtain ⟨-, hs, -⟩ := dial_ok ht
    have quiet : s.Tells t [] := tells_of_events (by rw [hs])
    exact quiet.trans (tells_publish _ .connected)
  · exact tells_of_events (by rw [(dial_error ht).1])

theorem tells_openTransaction (s : Scope σ) : s.Tells s.openTransaction.2 [] :=
  openTransaction_keeps (P := fun t => s.Tells t [])
    (fun t sql _ h => h.trans (tells_statement t sql [])) (.refl s)

theorem tells_begin (s : Scope σ) : s.Tells s.begin.2 [] := by
  have hr := tells_retain s
  rcases begin_cases s with ⟨e, t, ht, hb⟩ | ⟨t, ht, ⟨-, hb⟩ | ⟨-, ho⟩⟩ <;> rw [ht] at hr
  · exact hb ▸ hr
  · exact hb ▸ hr
  have hopen := tells_openTransaction t
  rcases ho with ⟨u, hu, hb⟩ | ⟨e, u, hu, hb⟩ <;> rw [hb] <;> rw [hu] at hopen
  · exact (hr.trans hopen).trans (tells_publish _ .startedTransaction)
  · exact (hr.trans hopen).trans (tells_release u)

theorem begin_depth (s : Scope σ) : s.connection.depth ≤ s.begin.2.connection.depth := by
  have hr := retain_depth s
  rcases begin_cases s with ⟨e, t, ht, hb⟩ | ⟨t, ht, ⟨-, hb⟩ | ⟨hz, -⟩⟩ <;> simp only [ht] at hr
  · rw [hb, hr]
  · rw [hb, ← hr]
    exact Nat.le_succ _
  · omega

theorem finish_depth (s : Scope σ) (failure : Option Error) :
    (s.finish failure).2.connection.depth = s.connection.depth - 1 := by
  rcases finish_cases s failure with ⟨hz, hf⟩ | ⟨h1, hf⟩ | ⟨depth, h2, hf⟩ <;> rw [hf]
  · rw [hz]
  · rw [release_depth, h1]
    exact congrArg Connection.depth (command_connection (s.withDepth 0) _)
  · rw [release_depth, h2]
    rfl

theorem close_depth (s : Scope σ) : s.close.2.connection.depth = 0 := by
  obtain ⟨t, ht, hc⟩ := close_cases s
  have hz : t.connection.depth = 0 := by
    rcases ht with ⟨hz, rfl⟩ | ⟨-, rfl⟩
    · exact hz
    · exact congrArg Connection.depth (command_connection (s.withDepth 0) "ROLLBACK")
  rw [hc]
  split_ifs
  · rw [disconnect_depth, hz]
  · exact hz

/-- The outermost transaction ends on the way from `s` to `t`: one statement is sent for that, and
then told of, with an error or not. Changes are kept if it is an accepted COMMIT. -/
structure Concludes (s t : Scope σ) (sql : String) (error : Option String) : Prop where
  sends : s.Sends t [sql]
  tells : ∃ client accepted, s.connection.client = some client ∧
    s.wire.calls ++ [.query s.session.number client sql [] accepted] <+: t.wire.calls ∧
      s.Tells t [(error, sql == "COMMIT" && accepted)]

omit [Link σ] in
theorem Concludes.of_withDepth {s t : Scope σ} {depth : Nat} {sql : String}
    {error : Option String} (h : (s.withDepth depth).Concludes t sql error) :
    s.Concludes t sql error :=
  ⟨h.sends, h.tells⟩

omit [Link σ] in
/-- More may happen when the transaction has ended. -/
theorem Concludes.followed {s t u : Scope σ} {sql : String} {error : Option String}
    (h : s.Concludes t sql error) (leads : t.Leads u) (sends : t.Sends u [])
    (tells : t.Tells u []) : s.Concludes u sql error := by
  obtain ⟨client, accepted, hc, hcalls, htold⟩ := h.tells
  obtain ⟨more, hmore, -⟩ := leads.calls
  exact ⟨h.sends.trans sends, client, accepted, hc, hcalls.trans ⟨more, hmore.symm⟩,
    htold.trans tells⟩

theorem concludes_command {s : Scope σ} (connected : s.connection.client.isSome) {sql : String}
    (hq : isControl sql = true) (error : Option String) (commit : Bool)
    (hcommit : commit = (sql == "COMMIT")) :
    s.Concludes ((s.command sql).2.publish
      (.endedTransaction error (commit && (s.command sql).1.isOk))) sql error := by
  have sends := sends_command s hq
  have tells : s.Tells (s.command sql).2 [] := tells_statement s sql []
  rw [if_pos connected] at sends
  rcases command_cases s sql with ⟨hc, -⟩ | ⟨client, outcome, t, hc, hs, -, hw⟩
  · rw [hc] at connected
    contradiction
  rw [hs] at sends tells ⊢
  exact ⟨sends, client, outcome.isOk, hc, hw ▸ List.prefix_refl _,
    hcommit ▸ tells.trans (tells_publish t (.endedTransaction error (commit && outcome.isOk)))⟩

/-- The outermost transaction ends as its own operation says. -/
theorem concludes_finish {s : Scope σ} (h : s.Balanced) (failure : Option Error)
    (h1 : s.connection.depth = 1) :
    s.Concludes (s.finish failure).2 (endingStatement failure s.session.config.commit)
      (failure.map Error.message) := by
  have hcommit : (failure.isNone && s.session.config.commit) =
      (endingStatement failure s.session.config.commit == "COMMIT") := by
    unfold endingStatement
    cases failure.isNone && s.session.config.commit <;> decide
  rcases finish_cases s failure with ⟨hz, -⟩ | ⟨-, hf⟩ | ⟨depth, h2, -⟩
  · omega
  · have connected : (s.withDepth 0).connection.client.isSome := h.connected (by omega)
    have told : s.Concludes ((s.withDepth 0).endOutermost failure).2 _ _ :=
      (concludes_command connected (isControl_endingStatement failure _) _ _ hcommit).of_withDepth
    rw [hf]
    exact told.followed (leads_release _) (sends_release _) (tells_release _)
  · omega

theorem concludes_close {s : Scope σ} (h : s.Balanced) (hp : 0 < s.connection.depth) :
    s.Concludes s.close.2 "ROLLBACK" (some "session closed") := by
  obtain ⟨t, ⟨hz, -⟩ | ⟨-, ht⟩, hc⟩ := close_cases s
  · omega
  -- the open transaction has its own share, so there is a connection to take it back on
  have connected : (s.withDepth 0).connection.client.isSome := h.connected hp
  have told : s.Concludes t "ROLLBACK" (some "session closed") :=
    ht ▸ (concludes_command connected (by decide) _ false (by decide)).of_withDepth
  rw [hc]
  split_ifs
  · exact told.followed (leads_disconnect t) (sends_disconnect t) (tells_disconnect t)
  · exact told

def Ends (s t : Scope σ) : Prop := 0 < s.connection.depth ∧ t.connection.depth = 0

instance (s t : Scope σ) : Decidable (s.Ends t) := inferInstanceAs (Decidable (_ ∧ _))

omit [Link σ] in
theorem not_ends_of_le {s t : Scope σ} (h : s.connection.depth ≤ t.connection.depth) :
    ¬s.Ends t := by
  rintro ⟨hp, hz⟩
  omega

theorem ends_finish {s : Scope σ} {failure : Option Error} :
    s.Ends (s.finish failure).2 ↔ s.connection.depth = 1 := by
  rw [Ends, finish_depth]
  omega

/-- What ends the transaction on the server, and how. -/
theorem concludes_on {s : Scope σ} (h : s.Balanced) {o : Operation} (he : s.Ends (o.on s)) :
    ∃ sql error, s.Concludes (o.on s) sql error ∧
      (sql = "COMMIT" ↔ o = .finish none ∧ s.session.config.commit = true) ∧
      (sql ≠ "COMMIT" → sql = "ROLLBACK") ∧
      ∀ failure, o = .finish failure → error = failure.map Error.message := by
  cases o with
  | retain => exact absurd he (not_ends_of_le (retain_depth s).ge)
  | release => exact absurd he (not_ends_of_le (release_depth s).ge)
  | begin => exact absurd he (not_ends_of_le (begin_depth s))
  | statement sql params =>
    have hc := statement_connection s sql params
    exact absurd he (not_ends_of_le (congrArg Connection.depth hc).ge)
  | finish failure =>
    refine ⟨_, _, concludes_finish h failure (ends_finish.mp he), ?_, ?_, ?_⟩
    · cases failure <;> cases s.session.config.commit <;> simp [endingStatement]
    · unfold endingStatement
      split <;> simp
    · rintro _ ⟨⟩
      rfl
  | close => exact ⟨_, _, concludes_close h he.1, by simp, fun _ => rfl, by simp⟩

/-- What does not end the transaction tells of no end. -/
theorem tells_on {s : Scope σ} {o : Operation} (hn : ¬s.Ends (o.on s)) : s.Tells (o.on s) [] := by
  cases o with
  | retain => exact tells_retain s
  | release => exact tells_release s
  | begin => exact tells_begin s
  | statement sql params => exact tells_statement s sql params
  | finish failure =>
    have h1 := mt ends_finish.mpr hn
    show s.Tells (s.finish failure).2 []
    rcases finish_cases s failure with ⟨-, hf⟩ | ⟨h, -⟩ | ⟨depth, -, hf⟩
    · rw [hf]
      exact .refl s
    · exact absurd h h1
    · rw [hf]
      exact tells_release _
  | close =>
    show s.Tells s.close.2 []
    obtain ⟨t, ⟨-, rfl⟩ | ⟨hp, -⟩, hc⟩ := close_cases s
    · rw [hc]
      split_ifs
      · exact tells_disconnect _
      · exact .refl _
    · exact absurd ⟨hp, close_depth s⟩ hn

end Scope

/-- However the tasks of any number of users take turns, and whatever the link refuses: the
operation that ends the outermost transaction sends one statement for that, and one event tells of
it. It is COMMIT only if this operation carries no failure and changes are kept at all, else
ROLLBACK, and the event says that changes are kept only if it is a COMMIT that was accepted. No
other operation commits anything or tells of an end, and the end of an inner transaction sends
nothing, whether or not that one has failed. -/
theorem outermost_ending_decides {σ α : Type} [Link σ] {w : World σ} (fresh : w.Fresh)
    {tasks : List (Act (World σ) α)} (plans : ∀ t ∈ tasks, Plan (fun _ => True) t)
    (schedule : List Nat) (n : Nat) {o : Operation}
    (ho : o.Admitted fun sql => isControl sql = false) :
    let now := ((Crowd.start w tasks).follow schedule).world
    let before := now.scope n
    let after := (now.perform n o).scope n
    (before.Ends after → ∃ sql error, before.Concludes after sql error ∧
      (sql = "COMMIT" ↔ o = .finish none ∧ before.session.config.commit = true) ∧
      (sql ≠ "COMMIT" → sql = "ROLLBACK") ∧
      ∀ failure, o = .finish failure → error = failure.map Error.message) ∧
    (¬before.Ends after → before.Tells after [] ∧ ∃ sent, before.Sends after sent ∧
      "COMMIT" ∉ sent ∧ ∀ failure, o = .finish failure → sent = []) := by
  intro now before after
  have balanced : now.Balanced := Plan.invariant (fun w n o _ h => h.perform n o)
    (fun w v a h => h.aside a) fresh.balanced plans schedule
  have hb : before.Balanced := (balanced n).2
  have hafter : after = o.on before := World.perform_scope now n o
  rw [hafter]
  refine ⟨Scope.concludes_on hb, fun hn => ⟨Scope.tells_on hn, ?_⟩⟩
  obtain ⟨sent, hs, hcommit, hfinish, -⟩ := Scope.sends_on hb ho
  have inner {failure : Option Error} (he : o = .finish failure) : before.connection.depth ≠ 1 :=
    fun h1 => hn (he ▸ Scope.ends_finish.mpr h1)
  refine ⟨sent, hs, fun hc => ?_, fun failure he => ?_⟩
  · obtain ⟨he, h1, -⟩ := hcommit.mp hc
    exact inner he h1
  · rw [hfinish failure he, if_neg (inner he)]

/-- One user's transaction is open around a failed one of its own and the statement of another
user. It fails as well, and is rolled back. -/
theorem outermost_ending_decides_failed :
    let w : World Script := { wire := { link := {} } }
    let failure : Error := .invalidValues (.described "boom")
    let tasks : List (Act (World Script) (List Record)) :=
      [Session.transaction 1
          ((Session.transaction 1 (.fail failure : Act _ Unit)).outcome >>= fun _ => .fail failure),
        Session.retained 1 (Session.statement 1 "SELECT 1" [])]
    w.Fresh ∧ (∀ t ∈ tasks, Plan (fun _ => True) t) ∧
      let now := ((Crowd.start w tasks).follow (List.replicate 14 [0, 1]).flatten).world
      let after := now.perform 1 (.finish (some failure))
      now.wire.controls = ["BEGIN"] ∧ after.wire.controls = ["BEGIN", "ROLLBACK"] ∧
        (now.session 1).endings = [] ∧
        (after.session 1).endings = [(some "Invalid values: boom", false)] := by
  intro w failure tasks
  have fresh : w.Fresh := ⟨rfl, fun _ => rfl, fun _ => rfl⟩
  have plans : ∀ t ∈ tasks, Plan (fun _ => True) t := by
    simp only [tasks, List.forall_mem_cons]
    exact ⟨.transaction 1 (.bind (.outcome (.transaction 1 (.ofExcept _))) fun _ => .ofExcept _),
      .retained 1 (.statement 1 [] trivial), by simp⟩
  have controls : ((Crowd.start w tasks).follow
      (List.replicate 14 [0, 1]).flatten).world.wire.controls = ["BEGIN"] := by decide
  have endings : (((Crowd.start w tasks).follow
      (List.replicate 14 [0, 1]).flatten).world.session 1).endings = [] := by decide
  have decides := outermost_ending_decides fresh plans (List.replicate 14 [0, 1]).flatten 1
    (o := .finish (some failure)) trivial
  obtain ⟨sql, error, concluded, hcommit, hrollback, herror⟩ := decides.1 (by decide)
  obtain rfl : sql = "ROLLBACK" := hrollback fun h => by simpa using hcommit.mp h
  obtain rfl : error = some "Invalid values: boom" := herror _ rfl
  have sent := concluded.sends
  obtain ⟨client, accepted, -, -, told⟩ := concluded.tells
  simp only [Scope.Sends, World.scope_wire, controls] at sent
  simp only [Scope.Tells, World.scope_session, endings] at told
  exact ⟨fresh, plans, controls, sent, endings, told⟩

/-- A transaction that has failed inside another one, which goes on and succeeds: changes are kept,
and that is what is told. -/
theorem failure_inside_committed :
    let w : World Script := { wire := { link := {} } }
    let failing : Act (World Script) Unit :=
      Session.transaction 1 (.fail (.invalidValues (.described "boom")))
    let lenient : Act (World Script) Unit :=
      Session.transaction 1 (failing.outcome >>= fun _ => .ofExcept (.ok ()))
    let after := (lenient.start w).2
    w.Fresh ∧ (failing.start (w.perform 1 .begin)).1.isOk = false ∧
      (lenient.start w).1.isOk = true ∧ after.wire.controls = ["BEGIN", "COMMIT"] ∧
        (after.session 1).endings = [(none, true)] := by
  intro w failing lenient after
  have fresh : w.Fresh := ⟨rfl, fun _ => rfl, fun _ => rfl⟩
  exact ⟨fresh, by decide, by decide, by decide, by decide⟩

end DataAccess
