import DataAccess.Proofs.Session.Balance

/-!
What the operations that give up a share of the connection undo. An opening step takes a share and
perhaps a transaction with it; the closing step that belongs to it leaves the connection as it was
before, also when the server refuses its part.
-/
namespace DataAccess

/-- What holds of a connection whenever nobody has a turn at it. -/
structure Connection.Sound (c : Connection) : Prop where
  held : c.client.isSome ↔ 0 < c.count
  depth_le : c.depth ≤ c.count

/-- A connection that nobody uses is closed, and no transaction is left on it. -/
theorem Connection.Sound.eq_of_unused {c : Connection} (h : c.Sound) (hc : c.count = 0) :
    c = {} := by
  obtain ⟨count, depth, client⟩ := c
  obtain rfl : count = 0 := hc
  obtain rfl : depth = 0 := Nat.le_zero.mp h.depth_le
  obtain rfl : client = none := Option.not_isSome_iff_eq_none.mp (by simp [h.held])
  rfl

namespace Scope
variable {σ : Type}

theorem Balanced.sound {s : Scope σ} (h : s.Balanced) : s.connection.Sound :=
  ⟨h.held, h.depth_le⟩

/-- From `s` to `t` nothing has changed about the connection, and connections that were opened on
the way have been given back. -/
structure Restores (s t : Scope σ) : Prop where
  number : t.session.number = s.session.number
  connection : t.connection = s.connection
  kept : 0 < s.connection.count → t.wire.opened = s.wire.opened
  returned : ∃ more, t.wire.calls = s.wire.calls ++ more ∧
    ∀ c, s.wire.opened < c → c ≤ t.wire.opened → Call.release s.session.number c ∈ more

/-- From `s` to `t` the session has got one user more, and `depth` transactions are open. If there
was no connection, there is a new one. -/
structure Enters (s t : Scope σ) (depth : Nat) : Prop where
  number : t.session.number = s.session.number
  connection : t.connection = {
    count := s.connection.count + 1
    depth
    client := if 0 < s.connection.count then s.connection.client else some (s.wire.opened + 1) }
  calls : s.wire.calls <+: t.wire.calls
  opened : t.wire.opened = s.wire.opened + if 0 < s.connection.count then 0 else 1

theorem Restores.of_quiet {s t : Scope σ} (number : t.session.number = s.session.number)
    (connection : t.connection = s.connection) (calls : s.wire.calls <+: t.wire.calls)
    (opened : t.wire.opened = s.wire.opened) : s.Restores t :=
  have ⟨more, hm⟩ := calls
  ⟨number, connection, fun _ => opened, more, hm.symm, fun c hc hle => by omega⟩

theorem Restores.refl (s : Scope σ) : s.Restores s :=
  .of_quiet rfl rfl (List.prefix_refl _) rfl

theorem Restores.trans {s t u : Scope σ} (h : s.Restores t) (k : t.Restores u) :
    s.Restores u := by
  obtain ⟨more, hm, hr⟩ := h.returned
  obtain ⟨later, hl, kr⟩ := k.returned
  refine ⟨k.number.trans h.number, k.connection.trans h.connection, fun hp => ?_, more ++ later,
    by rw [hl, hm, List.append_assoc], fun c hc hle => ?_⟩
  · rw [k.kept (h.connection ▸ hp), h.kept hp]
  · rcases Nat.lt_or_ge t.wire.opened c with ht | ht
    · exact List.mem_append_right more (h.number ▸ kr c ht hle)
    · exact List.mem_append_left later (hr c hc ht)

/-- A task that restores the connection may come between. -/
theorem Enters.trans {s t u : Scope σ} {depth : Nat} (h : s.Enters t depth)
    (k : t.Restores u) : s.Enters u depth := by
  have hp : 0 < t.connection.count := by
    rw [h.connection]
    exact Nat.succ_pos _
  obtain ⟨more, hm, -⟩ := k.returned
  exact ⟨k.number.trans h.number, k.connection.trans h.connection, h.calls.trans ⟨more, hm.symm⟩,
    (k.kept hp).trans h.opened⟩

theorem Enters.withDepth {s t : Scope σ} {depth : Nat} (h : s.Enters t depth)
    (deeper : Nat) : s.Enters (t.withDepth deeper) deeper :=
  ⟨h.number, by rw [connection_withDepth, h.connection], h.calls, h.opened⟩

theorem restores_publish (s : Scope σ) (e : Event) : s.Restores (s.publish e) :=
  .of_quiet rfl rfl (List.prefix_refl _) rfl

theorem Enters.sound {s t : Scope σ} {depth : Nat} (hs : s.connection.Sound)
    (h : s.Enters t depth) (hd : depth ≤ s.connection.count + 1) : t.connection.Sound := by
  rw [h.connection]
  refine ⟨?_, hd⟩
  by_cases hp : 0 < s.connection.count
  · simpa [hp] using hs.held.mpr hp
  · simp [hp]

variable [Link σ]

theorem restores_statement (s : Scope σ) (sql : String) (params : List Json) :
    s.Restores (s.statement sql params).2 := by
  rcases statement_cases s sql params with ⟨-, hs⟩ | ⟨client, answer, t, -, hs, ht, hw⟩ <;>
    rw [hs]
  · exact .refl s
  · refine .of_quiet (by rw [ht]; rfl) (by rw [connection, ht]; rfl) ⟨_, hw.symm⟩ ?_
    simp [Wire.opened, hw, Call.opens]

theorem restores_openTransaction (s : Scope σ) : s.Restores s.openTransaction.2 :=
  openTransaction_keeps (fun t sql _ h => h.trans (restores_statement t sql [])) (.refl s)

theorem restores_endOutermost (s : Scope σ) (failure : Option Error) :
    s.Restores (s.endOutermost failure).2 :=
  (restores_statement s _ []).trans (restores_publish _ _)

/-- The first user opens a connection and the others share it. -/
theorem enters_retain {s t : Scope σ} (h : s.retain = (.ok (), t)) :
    s.Enters t s.connection.depth := by
  rcases retain_cases s with ⟨hp, hr⟩ | ⟨hz, ⟨u, hu, hr⟩ | ⟨e, u, -, hr⟩⟩ <;>
    rw [h] at hr <;> cases hr
  · exact ⟨rfl, by simp [hp], List.prefix_refl _, by simp [hp]⟩
  · obtain ⟨-, hs, k, hc⟩ := dial_ok hu
    refine ⟨by rw [number_publish, number_withConnection, hs], by simp [hz], ⟨_, hc.symm⟩, ?_⟩
    simp [Wire.opened, hc, hz, Call.opens]

theorem restores_retain {s t : Scope σ} {e : Error} (h : s.retain = (.error e, t)) :
    s.Restores t := by
  rcases retain_cases s with ⟨-, hr⟩ | ⟨-, ⟨u, -, hr⟩ | ⟨f, u, hu, hr⟩⟩ <;>
    rw [h] at hr <;> cases hr
  obtain ⟨hs, k, hc⟩ := dial_error hu
  refine .of_quiet (by rw [hs]) (by rw [connection, hs]; rfl) ⟨_, hc.symm⟩ ?_
  simp [Wire.opened, hc, Call.opens]

/-- Who leaves last gives the connection back, and it was there before otherwise. -/
theorem Enters.release {s t : Scope σ} (hs : s.connection.Sound)
    (h : s.Enters t s.connection.depth) : s.Restores t.release.2 := by
  have hd := hs.depth_le
  have hc : t.connection.count = s.connection.count + 1 := by rw [h.connection]
  have hdt : t.connection.depth = s.connection.depth := by rw [h.connection]
  rcases release_cases t with ⟨hle, -⟩ | ⟨-, ⟨h1, hr⟩ | ⟨h1, hr⟩⟩
  · omega
  · -- nobody used the connection before
    have hz : s.connection.count = 0 := by omega
    have hnew : t.connection.client = some (s.wire.opened + 1) := by
      rw [h.connection]
      exact if_neg (by omega)
    have hopened : t.wire.opened = s.wire.opened + 1 := by
      rw [h.opened, if_neg (by omega)]
    obtain ⟨hconn, hcalls⟩ := disconnect_of_client hnew
    have hsame : t.disconnect.wire.opened = t.wire.opened := by
      simp [Wire.opened, hcalls, Call.opens]
    obtain ⟨more, hm⟩ := h.calls
    rw [hr]
    refine ⟨(leads_disconnect t).number.trans h.number, ?_, fun hp => by omega,
      more ++ [.release s.session.number (s.wire.opened + 1)], ?_, ?_⟩
    · rw [hconn, h.connection, hs.eq_of_unused hz]
    · rw [hcalls, ← hm, h.number, List.append_assoc]
    · intro c hlt hle
      obtain rfl : c = s.wire.opened + 1 := by
        change c ≤ t.disconnect.wire.opened at hle
        omega
      simp
  · have hp : 0 < s.connection.count := by omega
    rw [hr]
    refine .of_quiet h.number ?_ h.calls ?_
    · rw [connection_withConnection, h.connection]
      simp [hp]
    · rw [wire_withConnection, h.opened, if_pos hp, Nat.add_zero]

theorem enters_begin {s t : Scope σ} (h : s.begin = (.ok (), t)) :
    s.Enters t (s.connection.depth + 1) := by
  rcases begin_cases s with ⟨e, u, -, hb⟩ | ⟨u, hu, ⟨-, hb⟩ | ⟨hz, ⟨v, hv, hb⟩ | ⟨e, v, -, hb⟩⟩⟩ <;>
    rw [h] at hb <;> cases hb
  · have hdepth := (retain_ok hu).2
    rw [← hdepth]
    exact (enters_retain hu).withDepth _
  · have hdepth := (retain_ok hu).2
    have hopen : u.Restores v := by simpa only [hv] using restores_openTransaction u
    have hone : 1 = s.connection.depth + 1 := by omega
    rw [← hone]
    exact ((enters_retain hu).trans hopen).withDepth 1 |>.trans (restores_publish _ _)

/-- A transaction that cannot be opened gives up its share of the connection. -/
theorem restores_begin {s t : Scope σ} {e : Error} (hs : s.connection.Sound)
    (h : s.begin = (.error e, t)) : s.Restores t := by
  rcases begin_cases s with ⟨e, u, hu, hb⟩ | ⟨u, hu, ⟨-, hb⟩ | ⟨-, ⟨v, -, hb⟩ | ⟨e, v, hv, hb⟩⟩⟩ <;>
    rw [h] at hb <;> cases hb
  · exact restores_retain hu
  · have hopen : u.Restores v := by simpa only [hv] using restores_openTransaction u
    exact ((enters_retain hu).trans hopen).release hs

theorem Enters.finish {s t : Scope σ} (hs : s.connection.Sound)
    (h : s.Enters t (s.connection.depth + 1)) (failure : Option Error) :
    s.Restores (t.finish failure).2 := by
  have hd : t.connection.depth = s.connection.depth + 1 := by rw [h.connection]
  rcases finish_cases t failure with ⟨hz, -⟩ | ⟨h1, hf⟩ | ⟨depth, h2, hf⟩
  · omega
  · have hz : 0 = s.connection.depth := by omega
    rw [hf, hz]
    exact ((h.withDepth _).trans (restores_endOutermost _ failure)).release hs
  · have hdepth : depth + 1 = s.connection.depth := by omega
    rw [hf, hdepth]
    exact (h.withDepth _).release hs

end Scope

end DataAccess
