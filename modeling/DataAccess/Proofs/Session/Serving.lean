import DataAccess.Link.Scripted
import DataAccess.Proofs.Session.Execution

/-!
Sessions on a link that accepts everything. A statement gets the answer of the link, whatever the
session needs for it, and the session is ready for the next one.
-/
namespace DataAccess
variable {σ : Type} [Link σ]

/-- From link states that are good for an address on, everything is accepted there, and `answers`
tells which rows a statement may get. -/
structure Link.Serving (good : Option Address → σ → Prop)
    (answers : String → List Json → List Record → Prop) : Prop where
  connects : ∀ {address : Option Address} {l : σ}, good address l →
    ∃ k, Link.connect l address = (.ok (), k) ∧ good address k
  queries : ∀ {address : Option Address} {l : σ} (client : Nat) (sql : String)
    (params : List Json), good address l →
    ∃ rows k, Link.query l client sql params = (.ok rows, k) ∧ answers sql params rows ∧
      good address k
  releases : ∀ {address : Option Address} {l : σ} (client : Nat), good address l →
    good address (Link.release l client)

namespace Link.Serving
variable {good : Option Address → σ → Prop} {answers : String → List Json → List Record → Prop}
  {address : Option Address}

theorem dial (h : Serving good answers) {s : Scope σ}
    (hg : good s.session.database.address s.wire.link) :
    ∃ client t, s.dial = (.ok client, t) ∧ good s.session.database.address t.wire.link := by
  obtain ⟨k, hk, good_k⟩ := h.connects hg
  have tried : ∃ client t, s.tryConnect = (.ok client, t) ∧
      good s.session.database.address t.wire.link := by
    unfold Scope.tryConnect
    rw [hk]
    exact ⟨_, _, rfl, good_k⟩
  obtain ⟨client, t, ht, good_t⟩ := tried
  refine ⟨client, t, ?_, good_t⟩
  rw [Scope.dial]
  cases s.session.config.retry.attempts - 1 <;> rw [Scope.dialUpTo, ht]

theorem retain (h : Serving good answers) {s : Scope σ}
    (hg : good s.session.database.address s.wire.link) :
    ∃ t, s.retain = (.ok (), t) ∧ good s.session.database.address t.wire.link := by
  obtain ⟨client, u, hd, good_u⟩ := h.dial hg
  rcases Scope.retain_cases s with ⟨-, hr⟩ | ⟨-, ⟨t, ht, hr⟩ | ⟨e, t, ht, -⟩⟩
  · exact ⟨_, hr, hg⟩
  · rw [ht] at hd
    cases hd
    exact ⟨_, hr, good_u⟩
  · rw [ht] at hd
    cases hd

theorem statement (h : Serving good answers) {s : Scope σ} (hg : good address s.wire.link)
    (connected : s.connection.client.isSome) (sql : String) (params : List Json) :
    ∃ rows t, s.statement sql params = (.ok rows, t) ∧ answers sql params rows ∧
      good address t.wire.link := by
  obtain ⟨client, hc⟩ := Option.isSome_iff_exists.mp connected
  obtain ⟨rows, k, hk, answered, good_k⟩ := h.queries client sql params hg
  unfold Scope.statement
  rw [hc]
  simp only [hk]
  exact ⟨rows, _, rfl, answered, good_k⟩

theorem command (h : Serving good answers) {s : Scope σ} (hg : good address s.wire.link)
    (connected : s.connection.client.isSome) (sql : String) :
    ∃ t, s.command sql = (.ok (), t) ∧ good address t.wire.link ∧ t.connection = s.connection := by
  obtain ⟨rows, t, hs, -, good_t⟩ := h.statement hg connected sql []
  have same := Scope.statement_connection s sql []
  rw [hs] at same
  exact ⟨t, by rw [Scope.command, hs]; rfl, good_t, same⟩

theorem openTransaction (h : Serving good answers) {s : Scope σ} (hg : good address s.wire.link)
    (connected : s.connection.client.isSome) :
    ∃ t, s.openTransaction = (.ok (), t) ∧ good address t.wire.link := by
  obtain ⟨t, ht, good_t, same⟩ := h.command hg connected "BEGIN"
  rcases Scope.openTransaction_cases s with ⟨e, u, hu, -⟩ | ⟨u, hu, hi⟩ <;>
    rw [ht] at hu <;> cases hu
  rcases hi with ⟨-, ho⟩ | ⟨isolation, -, hi⟩
  · exact ⟨t, ho, good_t⟩
  obtain ⟨v, hv, good_v, -⟩ := h.command good_t (same ▸ connected) isolation
  rcases hi with ⟨x, hx, ho⟩ | ⟨e, x, hx, -⟩ <;> rw [hv] at hx <;> cases hx
  exact ⟨v, ho, good_v⟩

theorem begin (h : Serving good answers) {s : Scope σ} (hs : s.connection.Sound)
    (hg : good s.session.database.address s.wire.link) :
    ∃ t, s.begin = (.ok (), t) ∧ good s.session.database.address t.wire.link := by
  obtain ⟨t, ht, good_t⟩ := h.retain hg
  have connected : t.connection.client.isSome :=
    Session.connected_of_enters hs (Scope.enters_retain ht) (Nat.le_succ_of_le hs.depth_le)
  obtain ⟨u, hu, good_u⟩ := h.openTransaction good_t connected
  rcases Scope.begin_cases s with ⟨e, v, hv, -⟩ | ⟨v, hv, hb⟩ <;> rw [ht] at hv <;> cases hv
  rcases hb with ⟨-, hb⟩ | ⟨-, ⟨x, hx, hb⟩ | ⟨e, x, hx, -⟩⟩
  · exact ⟨_, hb, good_t⟩
  · rw [hu] at hx
    cases hx
    exact ⟨_, hb, good_u⟩
  · rw [hu] at hx
    cases hx

theorem disconnect (h : Serving good answers) {s : Scope σ} (hg : good address s.wire.link) :
    good address s.disconnect.wire.link := by
  unfold Scope.disconnect
  split
  next client hc => exact h.releases client hg
  next => exact hg

theorem release (h : Serving good answers) {s : Scope σ} (hg : good address s.wire.link)
    (hd : s.connection.depth < s.connection.count) :
    ∃ t, s.release = (.ok (), t) ∧ good address t.wire.link := by
  rcases Scope.release_cases s with ⟨hle, -⟩ | ⟨-, ⟨-, hr⟩ | ⟨-, hr⟩⟩
  · omega
  · exact ⟨_, hr, h.disconnect hg⟩
  · exact ⟨_, hr, hg⟩

theorem finish (h : Serving good answers) {s : Scope σ} (hg : good address s.wire.link)
    (hs : s.connection.Sound) (hp : 0 < s.connection.depth) (failure : Option Error) :
    ∃ t, s.finish failure = (.ok (), t) ∧ good address t.wire.link := by
  have hle := hs.depth_le
  obtain ⟨depth, hd⟩ : ∃ depth, s.connection.depth = depth + 1 := ⟨_, (Nat.sub_add_cancel hp).symm⟩
  have connected : (s.withDepth depth).connection.client.isSome := hs.held.mpr (by omega)
  have ended : ∃ t, (if depth = 0 then (s.withDepth depth).endOutermost failure
      else (.ok (), s.withDepth depth)) = (.ok (), t) ∧ good address t.wire.link ∧
      t.connection = (s.withDepth depth).connection := by
    split
    · obtain ⟨t, ht, good_t, same⟩ := h.command (s := s.withDepth depth) hg connected
        (if (failure.isNone && (s.withDepth depth).session.config.commit) = true then "COMMIT"
          else "ROLLBACK")
      simp only [Scope.endOutermost, ht]
      exact ⟨_, rfl, good_t, same⟩
    · exact ⟨_, rfl, hg, rfl⟩
  obtain ⟨t, ht, good_t, same⟩ := ended
  have lower : t.connection.depth < t.connection.count := by
    rw [same, Scope.connection_withDepth]
    show depth < s.connection.count
    omega
  obtain ⟨u, hu, good_u⟩ := h.release good_t lower
  refine ⟨u, ?_, good_u⟩
  rw [Scope.finish, hd]
  simp only [ht, hu]
  rfl

end Link.Serving

/-- A script without failures accepts everything at its own server. -/
theorem Script.serving (script : Script) (connects : script.failingConnects = 0)
    (accepts : script.failures = []) :
    Link.Serving (fun address l => address = none ∧ l = script)
      fun sql _ rows => rows = script.rows sql := by
  refine ⟨?_, ?_, fun _ good => good⟩
  · rintro address l ⟨rfl, rfl⟩
    refine ⟨l, ?_, rfl, rfl⟩
    show l.connect none = _
    rw [connect, connects]
  · rintro address l client sql params ⟨rfl, rfl⟩
    refine ⟨l.rows sql, l, ?_, rfl, rfl, rfl⟩
    show l.query sql = _
    rw [query, accepts]
    rfl

/-- Session `n` can run statements: its connection is in order, and the link accepts everything at
the address of its database. -/
structure World.Ready (good : Option Address → σ → Prop) (n : Nat) (w : World σ) : Prop where
  sound : (w.scope n).connection.Sound
  good : good (w.session n).database.address w.wire.link

/-- From `w` to `v` session `n` was served: users have asked for just this, the settings are as
before, and the session is ready again. -/
structure World.Served (good : Option Address → σ → Prop) (n : Nat) (w v : World σ)
    (asked : List (String × List Json)) : Prop where
  ready : v.Ready good n
  later : w.Later v
  asks : w.wire.Asks v.wire asked

namespace World
variable {good : Option Address → σ → Prop} {n : Nat} {u v w : World σ}

omit [Link σ] in
theorem Ready.served (h : w.Ready good n) : w.Served good n w [] :=
  ⟨h, .refl w, .refl _⟩

omit [Link σ] in
theorem Served.trans {first second : List (String × List Json)} (h : w.Served good n v first)
    (k : v.Served good n u second) : w.Served good n u (first ++ second) :=
  ⟨k.ready, h.later.trans k.later, h.asks.trans k.asks⟩

omit [Link σ] in
theorem Ready.aside (h : w.Ready good n) (a : w.Aside v) : w.Served good n v [] :=
  ⟨⟨a.sound h.sound, by rw [a.database n, a.wire]; exact h.good⟩, a.later, a.asks⟩

omit [Link σ] in
theorem Served.converted_eq {asked : List (String × List Json)} (h : w.Served good n v asked) :
    (v.session n).converted = (w.session n).converted :=
  Session.converted_congr (h.later.config n)

end World

namespace Session
variable {good : Option Address → σ → Prop}
  {answers : String → List Json → List Record → Prop} {n : Nat} {w : World σ}

/-- A statement between an opening and a closing step that are accepted. -/
theorem answered_between (h : Link.Serving good answers) {opening : Act (World σ) Unit}
    {closing : Except Error (List Record) → Act (World σ) Unit} {call : Act (World σ) (List Record)}
    {sql : String} {params : List Json}
    (frame : Act.Framed opening closing (statement n sql params) call) {u : World σ}
    {address : Option Address} (opened : opening.start w = (.ok (), u))
    (good_u : good address u.wire.link)
    (connected : (u.scope n).connection.client.isSome)
    (closed : ∀ (v : World σ) outcome, good address v.wire.link →
      (v.scope n).connection = (u.scope n).connection →
      ∃ x, (closing outcome).start v = (.ok (), x) ∧ good address x.wire.link) :
    ∃ rows v, call.start w = (.ok rows, v) ∧ answers sql params rows ∧
      good address v.wire.link := by
  obtain ⟨rows, t, ht, answered, good_t⟩ := h.statement good_u connected sql params
  have ran : (statement n sql params).start u =
      (.ok rows, u.perform n (.statement sql params)) := by
    rw [start_statement, ht]
  have good_v : good address (u.perform n (.statement sql params)).wire.link := by
    show good address ((u.scope n).statement sql params).2.wire.link
    rwa [ht]
  have same : ((u.perform n (.statement sql params)).scope n).connection =
      (u.scope n).connection := by
    rw [World.perform_scope]
    exact Scope.statement_connection _ sql params
  obtain ⟨x, hx, good_x⟩ := closed _ (.ok rows) good_v same
  exact ⟨rows, x, frame.passed opened ran hx, answered, good_x⟩

theorem framed_answered (h : Link.Serving good answers) (hw : w.Ready good n) (transact : Bool)
    (sql : String) (params : List Json) :
    ∃ rows v, (framed n transact sql params).start w = (.ok rows, v) ∧ answers sql params rows ∧
      good (w.session n).database.address v.wire.link := by
  cases transact with
  | true =>
    obtain ⟨t, ht, good_t⟩ := h.begin (s := w.scope n) hw.sound hw.good
    have entered := Scope.enters_begin ht
    have sound := entered.sound hw.sound (Nat.succ_le_succ hw.sound.depth_le)
    have opened : (begin n).start w = (.ok (), w.perform n .begin) := by rw [start_begin, ht]
    have scope : (w.perform n .begin).scope n = t := by
      rw [World.perform_scope]
      exact congrArg Prod.snd ht
    refine answered_between h (framed_transaction n _) opened ?_ ?_ ?_
    · rwa [← scope] at good_t
    · rw [scope]
      exact connected_of_enters hw.sound entered (Nat.succ_le_succ hw.sound.depth_le)
    · intro v outcome good_v same
      rw [scope] at same
      have deep : 0 < (v.scope n).connection.depth := by
        rw [same, entered.connection]
        exact Nat.succ_pos _
      obtain ⟨x, hx, good_x⟩ := h.finish good_v (same ▸ sound) deep (failure? outcome)
      refine ⟨v.perform n (.finish (failure? outcome)), by rw [start_finish, hx], ?_⟩
      show good _ ((v.scope n).finish (failure? outcome)).2.wire.link
      rwa [hx]
  | false =>
    obtain ⟨t, ht, good_t⟩ := h.retain (s := w.scope n) hw.good
    have entered := Scope.enters_retain ht
    have opened : (retain n).start w = (.ok (), w.perform n .retain) := by rw [start_retain, ht]
    have scope : (w.perform n .retain).scope n = t := by
      rw [World.perform_scope]
      exact congrArg Prod.snd ht
    refine answered_between h (framed_retained n _) opened ?_ ?_ ?_
    · rwa [← scope] at good_t
    · rw [scope]
      exact connected_of_enters hw.sound entered (Nat.le_succ_of_le hw.sound.depth_le)
    · intro v outcome good_v same
      rw [scope] at same
      have lower : (v.scope n).connection.depth < (v.scope n).connection.count := by
        rw [same, entered.connection]
        exact Nat.lt_succ_of_le hw.sound.depth_le
      obtain ⟨x, hx, good_x⟩ := h.release good_v lower
      refine ⟨v.perform n .release, by rw [start_release, hx], ?_⟩
      show good _ (v.scope n).release.2.wire.link
      rwa [hx]

/-- A statement that finds a connection for itself gets the answer of the link. -/
theorem execWith_served (h : Link.Serving good answers) (hw : w.Ready good n) {sql : String}
    (hq : isOwn sql = false) (params : List Json) (options : ExecOptions) :
    ∃ rows v, (execWith n sql params options).start w =
        (.ok (.shape options.first
          (if options.raw then rows else rows.map (w.session n).converted)), v) ∧
      answers sql params rows ∧ w.Served good n v [(sql, params)] := by
  have announced := hw.aside (w.publish_aside n (.preQuery sql params))
  obtain ⟨rows, v, hv, answered, good_v⟩ := framed_answered h announced.ready
    (options.transaction || (w.session n).config.alwaysTransact) sql params
  have run := start_execWith options hv
  have steps : Steps (σ := σ) (fun _ => True) (execWith n sql params options) :=
    Moves.steps (moves.execWith n trivial params options)
  have later := steps.later w
  rw [run] at later
  refine ⟨rows, _, run, answered, ⟨?_, ?_⟩, later, ?_⟩
  · have restores := restoring_execWith (n := n) sql params options w hw.sound
    rw [run] at restores
    exact restores.connection ▸ hw.sound
  · rw [later.database n, ← (w.publish_aside n (.preQuery sql params)).database n]
    exact good_v
  · have asks := execWith_asks hw.sound hq params options
    rw [run] at asks
    rcases asks with ⟨e, he, -⟩ | asks
    · contradiction
    · exact asks

end Session
end DataAccess
