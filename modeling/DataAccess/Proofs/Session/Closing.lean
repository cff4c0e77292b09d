import DataAccess.Proofs.Session.Execution

/-!
Programs that close their session somewhere inside. Whoever closes it gives up the connection for
all its users. What had its own share in the connection finds that it has none left: it ends without
a word to the server, and fails for that reason if for no other.
-/
namespace DataAccess

namespace Enclosure

def lost (n : Nat) : Enclosure → Error
  | retained => .notRetained n
  | transaction => .noTransaction n

end Enclosure

/-- Programs on one session that are made of statements and enclosed tasks, one after the other.
Errors may be raised and caught anywhere, and the session may be closed anywhere. -/
inductive Program : Type → Type 1
  | ofExcept {α : Type} (outcome : Except Error α) : Program α
  | bind {α β : Type} (first : Program α) (next : α → Program β) : Program β
  | outcome {α : Type} (task : Program α) : Program (Except Error α)
  | statement (sql : String) (params : List Json) : Program (List Record)
  | execWith (sql : String) (params : List Json) (options : ExecOptions) : Program Output
  | enclosed {α : Type} (e : Enclosure) (task : Program α) : Program α
  | close : Program Unit

namespace Program
variable {σ : Type} [Link σ]

def act (n : Nat) : {α : Type} → Program α → Act (World σ) α
  | _, .ofExcept result => .ofExcept result
  | _, .bind first next => first.act n >>= fun a => (next a).act n
  | _, .outcome task => (task.act n).outcome
  | _, .statement sql params => Session.statement n sql params
  | _, .execWith sql params options => Session.execWith n sql params options
  | _, .enclosed e task => e.around n (task.act n)
  | _, .close => Session.close n

/-- While the program runs from `w`, its part `part` is begun in `u`. -/
inductive Reaches (n : Nat) : {α β : Type} → Program α → World σ → Program β → World σ → Prop
  | here {α : Type} (program : Program α) (w : World σ) : Reaches n program w program w
  | first {α β γ : Type} {first : Program α} {next : α → Program β} {part : Program γ}
    {w u : World σ} :
    Reaches n first w part u → Reaches n (.bind first next) w part u
  | next {α β γ : Type} {first : Program α} {next : α → Program β} {part : Program γ}
    {w v u : World σ} {a : α} :
    (first.act n).start w = (.ok a, v) → Reaches n (next a) v part u →
      Reaches n (.bind first next) w part u
  | outcome {α γ : Type} {task : Program α} {part : Program γ} {w u : World σ} :
    Reaches n task w part u → Reaches n (.outcome task) w part u
  | enclosed {α γ : Type} {e : Enclosure} {task : Program α} {part : Program γ}
    {w v u : World σ} :
    (e.opening n).start w = (.ok (), v) → Reaches n task v part u →
      Reaches n (.enclosed e task) w part u

end Program

namespace Scope
variable {σ : Type}

/-- On the way from `s` to `t` the session has given up its connection, and every one that was
opened on the way. -/
structure Vacates (s t : Scope σ) : Prop where
  number : t.session.number = s.session.number
  connection : t.connection = {}
  returned : ∃ more, t.wire.calls = s.wire.calls ++ more ∧
    ∀ c, s.connection.client = some c ∨ s.wire.opened < c ∧ c ≤ t.wire.opened →
      Call.release s.session.number c ∈ more

def Settles (s t : Scope σ) : Prop := s.Restores t ∨ s.Vacates t

variable {s t u : Scope σ}

theorem Restores.vacates (h : s.Restores t) (k : t.Vacates u) : s.Vacates u := by
  obtain ⟨more, hm, hr⟩ := h.returned
  obtain ⟨later, hl, kr⟩ := k.returned
  refine ⟨k.number.trans h.number, k.connection, more ++ later,
    by rw [hl, hm, List.append_assoc], ?_⟩
  rintro c (held | ⟨hlt, hle⟩)
  · exact List.mem_append_right more (h.number ▸ kr c (.inl (h.connection ▸ held)))
  · rcases Nat.lt_or_ge t.wire.opened c with ht | ht
    · exact List.mem_append_right more (h.number ▸ kr c (.inr ⟨ht, hle⟩))
    · exact List.mem_append_left later (hr c hlt ht)

/-- Once the connection is given up, whatever comes after leaves it so. -/
theorem Vacates.settles (h : s.Vacates t) (k : t.Settles u) : s.Vacates u := by
  obtain ⟨more, hm, hr⟩ := h.returned
  have kept : ∃ later, u.wire.calls = t.wire.calls ++ later ∧
      ∀ c, t.wire.opened < c → c ≤ u.wire.opened → Call.release t.session.number c ∈ later := by
    rcases k with k | k
    · exact k.returned
    · obtain ⟨later, hl, kr⟩ := k.returned
      exact ⟨later, hl, fun c hlt hle => kr c (.inr ⟨hlt, hle⟩)⟩
  obtain ⟨later, hl, kr⟩ := kept
  have number : u.session.number = t.session.number := k.elim (·.number) (·.number)
  have connection : u.connection = {} := k.elim (fun k => k.connection.trans h.connection)
    (·.connection)
  refine ⟨number.trans h.number, connection, more ++ later,
    by rw [hl, hm, List.append_assoc], ?_⟩
  rintro c (held | ⟨hlt, hle⟩)
  · exact List.mem_append_left later (hr c (.inl held))
  · rcases Nat.lt_or_ge t.wire.opened c with ht | ht
    · exact List.mem_append_right more (h.number ▸ kr c ht hle)
    · exact List.mem_append_left later (hr c (.inr ⟨hlt, ht⟩))

theorem Settles.vacates (h : s.Settles t) (k : t.Vacates u) : s.Vacates u :=
  h.elim (·.vacates k) (·.settles (.inr k))

theorem Settles.trans (h : s.Settles t) (k : t.Settles u) : s.Settles u := by
  rcases h with h | h
  · exact k.elim (fun k => .inl (h.trans k)) fun k => .inr (h.vacates k)
  · exact .inr (h.settles k)

theorem Settles.number (h : s.Settles t) : t.session.number = s.session.number :=
  h.elim (·.number) (·.number)

theorem Settles.sound (h : s.Settles t) (hs : s.connection.Sound) : t.connection.Sound := by
  rcases h with h | h
  · rwa [h.connection]
  · rw [h.connection]
    exact ⟨by simp, Nat.le_refl 0⟩

/-- A new user does not keep the connection from being given up. -/
theorem Enters.vacates {depth : Nat} (hs : s.connection.Sound) (h : s.Enters t depth)
    (k : t.Vacates u) : s.Vacates u := by
  obtain ⟨before, hb⟩ := h.calls
  obtain ⟨more, hm, hr⟩ := k.returned
  have client := congrArg Connection.client h.connection
  refine ⟨k.number.trans h.number, k.connection, before ++ more,
    by rw [hm, ← hb, List.append_assoc], ?_⟩
  rintro c hc
  refine List.mem_append_right before (h.number ▸ hr c ?_)
  by_cases hp : 0 < s.connection.count
  · rw [client, h.opened, if_pos hp, if_pos hp, Nat.add_zero]
    exact hc
  · have unheld : s.connection.client ≠ some c := by
      intro held
      exact hp (hs.held.mp (by rw [held]; rfl))
    obtain ⟨hlt, hle⟩ := hc.resolve_left unheld
    rw [client, h.opened, if_neg hp, if_neg hp]
    rcases Nat.lt_or_ge (s.wire.opened + 1) c with ht | ht
    · exact .inr ⟨ht, hle⟩
    · exact .inl (congrArg some (by omega))

variable [Link σ]

/-- These calls take back what is open: one statement if that is a transaction, else none. -/
def TakesBack (s : Scope σ) (sent : List Call) : Prop :=
  (s.connection.depth = 0 → sent = []) ∧
    (0 < s.connection.depth → ∃ client accepted, s.connection.client = some client ∧
      sent = [.query s.session.number client "ROLLBACK" [] accepted])

/-- Closing takes back an open transaction before it gives the connection back. -/
theorem close_takesBack (h : s.connection.Sound) :
    ∃ t sent, t.wire.calls = s.wire.calls ++ sent ∧ s.TakesBack sent ∧
      t.session.number = s.session.number ∧ t.connection = { s.connection with depth := 0 } ∧
      s.close.2 = if 0 < t.connection.count then t.disconnect else t := by
  obtain ⟨t, ⟨hz, rfl⟩ | ⟨hp, rfl⟩, hc⟩ := close_cases s
  · exact ⟨t, [], by simp, ⟨fun _ => rfl, fun hp => by omega⟩, rfl, by rw [← hz], hc⟩
  have unchanged := command_connection (s.withDepth 0) "ROLLBACK"
  rcases command_cases (s.withDepth 0) "ROLLBACK" with
    ⟨none, -⟩ | ⟨client, answer, u, hs, hu, hsession, hcalls⟩
  · -- an open transaction has its own share, so there is a connection to take it back on
    have held := h.held.mpr (Nat.lt_of_lt_of_le hp h.depth_le)
    rw [show s.connection.client = Option.none from none] at held
    contradiction
  · rw [hu] at unchanged hc
    have number : u.session.number = s.session.number := by rw [hsession]; rfl
    exact ⟨u.publish _, _, hcalls, ⟨fun hz => by omega, fun _ => ⟨client, _, hs, rfl⟩⟩, number,
      unchanged, hc⟩

/-- All that the link is asked when a session is closed. -/
theorem close_calls (h : s.connection.Sound) :
    ∃ sent, s.TakesBack sent ∧ s.close.2.wire.calls = s.wire.calls ++
      (sent ++ s.connection.client.toList.map (Call.release s.session.number)) := by
  obtain ⟨t, sent, calls, taken, number, connection, hc⟩ := close_takesBack h
  have client : t.connection.client = s.connection.client := by rw [connection]
  refine ⟨sent, taken, ?_⟩
  rw [hc, connection]
  split_ifs with used
  · obtain ⟨held, hs⟩ := Option.isSome_iff_exists.mp (h.held.mpr used)
    rw [(disconnect_of_client (client.trans hs)).2, calls, number, hs, List.append_assoc]
    rfl
  · rw [h.eq_of_unused (by simpa using used), calls]
    simp

theorem close_connection (h : s.connection.Sound) : s.close.2.connection = {} := by
  obtain ⟨t, -, -, -, -, connection, hc⟩ := close_takesBack h
  rw [hc, connection]
  split_ifs with used
  · rw [disconnect_connection, connection]
  · rw [connection, h.eq_of_unused (by simpa using used)]

theorem vacates_close (h : s.connection.Sound) : s.Vacates s.close.2 := by
  obtain ⟨sent, ⟨quiet, rolled⟩, calls⟩ := close_calls h
  have unopened : sent.countP Call.opens = 0 := by
    rcases Nat.eq_zero_or_pos s.connection.depth with hz | hp
    · rw [quiet hz]
      rfl
    · obtain ⟨client, accepted, -, rfl⟩ := rolled hp
      rfl
  have opened : s.close.2.wire.opened = s.wire.opened := by
    cases s.connection.client <;> simp [Wire.opened, calls, unopened, Call.opens]
  refine ⟨(leads_on .close s).number, close_connection h, _, calls, ?_⟩
  rintro c (held | ⟨hlt, hle⟩)
  · simp [held]
  · omega

/-- Who gives up a share of a connection that has been given up is refused, and nothing changes. -/
theorem release_of_vacant (h : s.connection = {}) :
    s.release = (.error (.notRetained s.session.number), s) :=
  release_of_count_eq_depth (by rw [h])

theorem finish_of_vacant (h : s.connection = {}) (failure : Option Error) :
    s.finish failure = (.error (.noTransaction s.session.number), s) := by
  rw [finish, h]

end Scope

namespace Session
variable {σ : Type} [Link σ]

theorem start_close (n : Nat) (w : World σ) :
    (close n).start w = ((w.scope n).close.1, w.perform n .close) :=
  Act.start_holding _ _ w

end Session

namespace Enclosure
variable {σ α : Type} [Link σ] {n : Nat} {w v : World σ}

/-- When the connection has been given up inside, there is nothing to close. -/
theorem closing_of_vacant (e : Enclosure) (h : (v.scope n).connection = {})
    (outcome : Except Error α) :
    ((e.closing n outcome).start v).1 = .error (e.lost (v.session n).number) ∧
      ((e.closing n outcome).start v).2.scope n = v.scope n := by
  cases e with
  | retained =>
    have refused := Scope.release_of_vacant h
    rw [closing, Session.start_release, World.perform_scope, refused]
    exact ⟨rfl, congrArg Prod.snd refused⟩
  | transaction =>
    have refused := Scope.finish_of_vacant h (failure? outcome)
    rw [closing, Session.start_finish, World.perform_scope, refused]
    exact ⟨rfl, congrArg Prod.snd refused⟩

end Enclosure

namespace Session
variable {σ α β : Type} {n : Nat}

/-- Whatever happens in a task, it leaves the connection as it was or given up. -/
def Settling (n : Nat) (task : Act (World σ) α) : Prop :=
  ∀ w : World σ, (w.scope n).connection.Sound → (w.scope n).Settles ((task.start w).2.scope n)

theorem Restoring.settling {task : Act (World σ) α} (h : Restoring n task) : Settling n task :=
  fun w hw => .inl (h w hw)

theorem settling_bind {task : Act (World σ) α} {next : α → Act (World σ) β}
    (ht : Settling n task) (hn : ∀ a, Settling n (next a)) : Settling n (task >>= next) := by
  intro w hw
  have first := ht w hw
  rcases h : task.start w with ⟨e | a, v⟩ <;> rw [h] at first
  · rwa [Act.start_bind_error h]
  · rw [Act.start_bind_ok h]
    exact first.trans (hn a v (first.sound hw))

theorem settling_outcome {task : Act (World σ) α} (ht : Settling n task) :
    Settling n task.outcome := by
  intro w hw
  rw [Act.start_outcome]
  exact ht w hw

variable [Link σ]

theorem settling_close (n : Nat) : Settling (σ := σ) n (close n) := by
  intro w hw
  rw [start_close, World.perform_scope]
  exact .inr (Scope.vacates_close hw)

end Session

namespace Enclosure
variable {σ α : Type} [Link σ] {n : Nat} {w v : World σ} {task : Act (World σ) α}

/-- If the connection is given up inside, it is given up altogether. -/
theorem vacates (e : Enclosure) (hw : (w.scope n).connection.Sound)
    (ho : (e.opening n).start w = (.ok (), v))
    (h : (v.scope n).Vacates ((task.start v).2.scope n)) :
    (w.scope n).Vacates (((e.around n task).start w).2.scope n) := by
  rw [(e.framed n task).world ho, (e.closing_of_vacant h.connection _).2]
  exact (e.enters_of_opened ho).vacates hw h

theorem settling (e : Enclosure) (h : Session.Settling n task) :
    Session.Settling n (e.around n task) := by
  intro w hw
  rcases ho : (e.opening n).start w with ⟨f | _, v⟩
  · rw [(e.framed n task).refused ho]
    exact .inl (e.restores_of_refused hw ho)
  rcases h v (e.sound_of_opened hw ho) with restored | vacated
  · rw [(e.framed n task).world ho]
    exact .inl (e.restores_of_closed hw ((e.enters_of_opened ho).trans restored) _)
  · exact .inr (e.vacates hw ho vacated)

/-- If the connection is given up inside, nothing is asked of the link when the task is done. The
whole fails as the task does, or else because there is nothing left to close. -/
theorem around_of_vacant (e : Enclosure) (ho : (e.opening n).start w = (.ok (), v))
    (h : ((task.start v).2.scope n).connection = {}) :
    ((e.around n task).start w).1 = .error ((failure? (task.start v).1).getD
        (e.lost ((task.start v).2.session n).number)) ∧
      ((e.around n task).start w).2.wire = (task.start v).2.wire := by
  have frame := e.framed n task
  rcases ht : task.start v with ⟨outcome, x⟩
  rw [ht] at h
  obtain ⟨refused, unchanged⟩ := e.closing_of_vacant h outcome
  rcases hc : (e.closing n outcome).start x with ⟨closed, y⟩
  rw [hc] at refused unchanged
  obtain rfl : closed = _ := refused
  have wire : y.wire = x.wire := congrArg Scope.wire unchanged
  cases outcome with
  | error f => rw [frame.failed ho ht hc]; exact ⟨rfl, wire⟩
  | ok a => rw [frame.unclosed ho ht hc]; exact ⟨rfl, wire⟩

end Enclosure

namespace Program
variable {σ α β : Type} [Link σ] {n : Nat} {w u : World σ} {program : Program α}
  {part : Program β}

theorem settling (program : Program α) : Session.Settling (σ := σ) n (program.act n) := by
  induction program with
  | ofExcept result => exact (Session.restoring_ofExcept result).settling
  | bind first next ihf ihn => exact Session.settling_bind ihf ihn
  | outcome task ih => exact Session.settling_outcome ih
  | statement sql params => exact (Session.restoring_statement sql params).settling
  | execWith sql params options =>
    exact (Session.restoring_execWith sql params options).settling
  | enclosed e task ih => exact e.settling ih
  | close => exact Session.settling_close n

/-- The operations that a program is made of are those of its session. -/
theorem plan (program : Program α) : Plan (fun _ => True) (program.act (σ := σ) n) := by
  induction program with
  | ofExcept result => exact .ofExcept result
  | bind first next ihf ihn => exact .bind ihf ihn
  | outcome task ih => exact .outcome ih
  | statement sql params => exact .statement n params trivial
  | execWith sql params options => exact .execWith n params options trivial
  | enclosed e task ih =>
    cases e with
    | retained => exact .retained n ih
    | transaction => exact .transaction n ih
  | close => exact .close n

theorem balanced (program : Program α) (hw : w.Balanced) :
    ((program.act n).start w).2.Balanced := by
  have kept (f : World σ → World σ) (hf : World.Change (fun _ => True) f) (v : World σ)
      (hv : v.Balanced) : (f v).Balanced := by
    cases hf with
    | operation m _ => exact hv.perform m _
    | aside h => exact hv.aside (h v)
  exact Routine.Only.run (R := fun w v => w.Balanced → v.Balanced) (fun _ => id)
    (fun first rest h => rest (first h)) kept program.plan.moves.steps w hw

/-- Every part is begun when nobody has a turn at the connection. -/
theorem Reaches.begun (h : Reaches n program w part u) (hw : (w.scope n).connection.Sound) :
    (u.scope n).connection.Sound ∧ (u.session n).number = (w.session n).number := by
  induction h with
  | here program w => exact ⟨hw, rfl⟩
  | first _ ih => exact ih hw
  | @next _ _ _ first next part w v u a hf _ ih =>
    have settled : (w.scope n).Settles (v.scope n) := by
      simpa only [hf] using first.settling (n := n) w hw
    obtain ⟨sound, number⟩ := ih (settled.sound hw)
    exact ⟨sound, number.trans settled.number⟩
  | outcome _ ih => exact ih hw
  | @enclosed _ _ e task part w v u ho _ ih =>
    obtain ⟨sound, number⟩ := ih (e.sound_of_opened hw ho)
    exact ⟨sound, number.trans (e.enters_of_opened ho).number⟩

/-- What gives up the connection in a part gives it up for the program. -/
theorem Reaches.vacates (h : Reaches n program w part u) (hw : (w.scope n).connection.Sound)
    (given_up : (u.scope n).Vacates (((part.act n).start u).2.scope n)) :
    (w.scope n).Vacates (((program.act n).start w).2.scope n) := by
  induction h with
  | here program w => exact given_up
  | @first _ _ _ first next part w u _ ih =>
    have vacated := ih hw given_up
    rcases hf : (first.act n).start w with ⟨f | a, v⟩ <;> rw [hf] at vacated
    · rwa [act, Act.start_bind_error hf]
    · rw [act, Act.start_bind_ok hf]
      exact vacated.settles ((next a).settling v (Scope.Settles.sound (.inr vacated) hw))
  | @next _ _ _ first next part w v u a hf _ ih =>
    have settled : (w.scope n).Settles (v.scope n) := by
      simpa only [hf] using first.settling (n := n) w hw
    rw [act, Act.start_bind_ok hf]
    exact settled.vacates (ih (settled.sound hw) given_up)
  | outcome _ ih =>
    rw [act, Act.start_outcome]
    exact ih hw given_up
  | @enclosed _ _ e task part w v u ho _ ih =>
    exact e.vacates hw ho (ih (e.sound_of_opened hw ho) given_up)

/-- A program in which the session is closed has given up the connection in the end. -/
theorem Reaches.close_vacates (h : Reaches n program w .close u)
    (hw : (w.scope n).connection.Sound) :
    (w.scope n).Vacates (((program.act n).start w).2.scope n) := by
  refine h.vacates hw ?_
  rw [act, Session.start_close, World.perform_scope]
  exact Scope.vacates_close (h.begun hw).1

end Program

/-- Whatever has gone on before, and whatever the link refuses: each time a program closes its
session, an open transaction is taken back with one ROLLBACK, no other statement is sent, and the
connection is given up even if the ROLLBACK fails. Every enclosed task that is under way then ends
without asking the link for anything; it fails with its own error, or else because its share of the
connection or its transaction is not there any more. In the end nobody uses the connection, and all
that were obtained have been given back. -/
theorem closing_unwinds {σ α β : Type} [Link σ] {w : World σ} (fresh : w.Fresh)
    {tasks : List (Act (World σ) α)} (plans : ∀ t ∈ tasks, Plan (fun _ => True) t)
    (schedule : List Nat) (n : Nat) (program : Program β) :
    let before := ((Crowd.start w tasks).follow schedule).world
    let after := ((program.act n).start before).2
    (∀ u, Program.Reaches n program before .close u →
      let closed := ((Session.close n).start u).2
      (closed.session n).connection = {} ∧ ∃ sent, (u.scope n).TakesBack sent ∧
        closed.wire.calls = u.wire.calls ++
          (sent ++ (u.session n).connection.client.toList.map (Call.release n))) ∧
    (∀ {γ : Type} (e : Enclosure) (task : Program γ) (u v x : World σ),
      Program.Reaches n program before (.enclosed e task) u →
      (e.opening n).start u = (.ok (), v) → Program.Reaches n task v .close x →
        let ended := (task.act n).start v
        let left := ((Program.enclosed e task).act n).start u
        left.2.wire = ended.2.wire ∧ left.1 = .error ((failure? ended.1).getD (e.lost n))) ∧
    ((∃ u, Program.Reaches n program before .close u) →
      (after.session n).connection = {} ∧ after.wire.obtained n = after.wire.returned n ∧
        ∃ more, after.wire.calls = before.wire.calls ++ more ∧
          ∀ c, (before.session n).connection.client = some c ∨
            before.wire.opened < c ∧ c ≤ after.wire.opened → Call.release n c ∈ more) := by
  intro before after
  have balanced : before.Balanced := Plan.invariant (fun w n o _ h => h.perform n o)
    (fun w v a h => h.aside a) fresh.balanced plans schedule
  obtain ⟨own, books⟩ := balanced n
  refine ⟨fun u h => ?_, fun e task u v x h ho inside => ?_, fun ⟨u, h⟩ => ?_⟩
  · obtain ⟨sound, number⟩ := h.begun books.sound
    obtain ⟨sent, taken, calls⟩ := Scope.close_calls sound
    rw [World.scope_session, number, own] at calls
    rw [Session.start_close]
    refine ⟨?_, sent, taken, calls⟩
    rw [World.perform_session]
    exact Scope.close_connection sound
  · obtain ⟨sound, number⟩ := h.begun books.sound
    have opened := e.sound_of_opened sound ho
    have vacated := inside.close_vacates opened
    obtain ⟨failed, quiet⟩ := e.around_of_vacant ho vacated.connection
    have mine : (((task.act n).start v).2.session n).number = n :=
      (vacated.number.trans (e.enters_of_opened ho).number).trans (number.trans own)
    rw [mine] at failed
    exact ⟨quiet, failed⟩
  · have vacated := h.close_vacates books.sound
    obtain ⟨more, calls, returned⟩ := vacated.returned
    rw [World.scope_session, own] at returned
    obtain ⟨mine, settled⟩ := program.balanced (n := n) balanced n
    have obtained := settled.obtained
    rw [vacated.connection, World.scope_session, mine] at obtained
    exact ⟨vacated.connection, obtained, more, calls, returned⟩

/-- A task closes the session in its transaction, which stands inside that of another user, and goes
on with a connection of its own. ROLLBACK is refused, and the transaction is not there to be
ended. -/
theorem closing_unwinds_refused_rollback :
    let w : World Script := { wire := { link := { failures := [{ fragment := "ROLLBACK" }] } } }
    let tasks : List (Act (World Script) (List Record)) :=
      [Session.transaction 1 (Session.statement 1 "DELETE FROM t" [])]
    let task : Program (List Record) :=
      .bind (.outcome .close) fun _ => .enclosed .retained (.statement "SELECT 1" [])
    let program : Program (List Record) := .enclosed .transaction task
    w.Fresh ∧ (∀ t ∈ tasks, Plan (fun _ => True) t) ∧
      let before := ((Crowd.start w tasks).follow (List.replicate 4 0)).world
      let opened := ((Session.begin 1).start before).2
      let after := ((program.act 1).start before).2
      (before.session 1).connection = ⟨1, 1, some 1⟩ ∧
        Program.Reaches 1 program before .close opened ∧
        (opened.session 1).connection = ⟨2, 2, some 1⟩ ∧
        (((Session.close 1).start opened).2.session 1).connection = {} ∧
        ((program.act 1).start before).1 = .error (.noTransaction 1) ∧
        (after.session 1).connection = {} ∧
        ∃ more, after.wire.calls = before.wire.calls ++ more ∧
          Call.release 1 1 ∈ more ∧ Call.release 1 2 ∈ more := by
  intro w tasks task program
  have fresh : w.Fresh := ⟨rfl, fun _ => rfl, fun _ => rfl⟩
  have plans : ∀ t ∈ tasks, Plan (fun _ => True) t := by
    simp only [tasks, List.forall_mem_singleton]
    exact .transaction 1 (.statement 1 [] trivial)
  let opened := ((Session.begin 1).start
    ((Crowd.start w tasks).follow (List.replicate 4 0)).world).2
  have shared : (((Crowd.start w tasks).follow (List.replicate 4 0)).world.session 1).connection =
      ⟨1, 1, some 1⟩ := by decide
  have deeper : (opened.session 1).connection = ⟨2, 2, some 1⟩ := by decide
  have inside : Program.Reaches 1 task opened .close opened := .first (.outcome (.here _ _))
  have reached : Program.Reaches 1 program
      ((Crowd.start w tasks).follow (List.replicate 4 0)).world .close opened :=
    .enclosed (e := .transaction) rfl inside
  have succeeded : failure? ((task.act 1).start opened).1 = none := by decide
  have first : ((Crowd.start w tasks).follow (List.replicate 4 0)).world.wire.opened = 1 := by
    decide
  have second : ((program.act 1).start
      ((Crowd.start w tasks).follow (List.replicate 4 0)).world).2.wire.opened = 2 := by decide
  obtain ⟨closes, frames, ends⟩ := closing_unwinds fresh plans (List.replicate 4 0) 1 program
  obtain ⟨-, failed⟩ := frames .transaction task _ opened opened (.here _ _) rfl inside
  obtain ⟨vacant, -, more, calls, returned⟩ := ends ⟨opened, reached⟩
  simp only [first, second, shared, succeeded] at failed returned
  exact ⟨fresh, plans, shared, reached, deeper, (closes opened reached).1, failed, vacant, more,
    calls, returned 1 (.inl rfl), returned 2 (.inr ⟨by decide, by decide⟩)⟩

end DataAccess
