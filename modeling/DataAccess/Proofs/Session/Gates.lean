import DataAccess.Proofs.Session.Crowd
import Mathlib.Logic.Hydra

/-!
Gates are ranked, and a task that holds some enters only gates of higher rank. Tasks that keep to
this never wait for each other in a circle, and all of them end if each gets its turn again and
again.
-/
namespace DataAccess

/-- A cache waits for the catalogue and for connections, and the catalogue for connections. -/
def Gate.rank : Gate → Nat
  | .cache .. => 0
  | .catalogue _ => 1
  | .connection _ => 2

theorem Gate.rank_lt (g : Gate) : g.rank < 3 := by
  cases g <;> simp [rank]

namespace Routine
variable {W α β : Type}

/-- A task that holds the gates `held`, the last first, and ends with `kept`. It has to do with its
`own` gates only, enters those that all it holds are `below`, and leaves them in the opposite
order. -/
def Climbs (own : Gate → Prop) (below : Gate → Gate → Prop) (kept : List Gate) :
    List Gate → Routine W α → Prop
  | held, done _ => held = kept
  | held, step _ next => ∀ b, (next b).Climbs own below kept held
  | held, enter gate next =>
    own gate ∧ (∀ g ∈ held, below g gate) ∧ next.Climbs own below kept (gate :: held)
  | held, leave gate next =>
    own gate ∧ ∃ rest, held = gate :: rest ∧ next.Climbs own below kept rest

/-- A task that whoever holds only gates below `low` may run, and then holds as many as before. -/
def Orderly (low : Nat) (r : Routine W α) : Prop :=
  ∀ held : List Gate, (∀ g ∈ held, g.rank < low) →
    r.Climbs (low ≤ ·.rank) (·.rank < ·.rank) held held

section
variable {own own' : Gate → Prop} {below below' : Gate → Gate → Prop}

theorem Climbs.mono (wider : ∀ g, own g → own' g) (coarser : ∀ g h, below g h → below' g h)
    {r : Routine W α} {held kept : List Gate} (hr : r.Climbs own below kept held) :
    r.Climbs own' below' kept held := by
  induction r generalizing held with
  | done a => exact hr
  | step change next ih => exact fun b => ih b (hr b)
  | enter gate next ih =>
    exact ⟨wider _ hr.1, fun g hg => coarser _ _ (hr.2.1 g hg), ih hr.2.2⟩
  | leave gate next ih =>
    obtain ⟨hl, rest, rfl, hr⟩ := hr
    exact ⟨wider _ hl, rest, rfl, ih hr⟩

theorem Climbs.bind_of_gives {Q : α → Prop} {r : Routine W α} {f : α → Routine W β}
    {held middle kept : List Gate} (hr : r.Climbs own below middle held) (hq : r.Gives Q)
    (hf : ∀ a, Q a → (f a).Climbs own below kept middle) :
    (r.bind f).Climbs own below kept held := by
  induction r generalizing held with
  | done a =>
    obtain rfl : held = middle := hr
    exact hf a hq
  | step change next ih => exact fun b => ih b (hr b) (hq b)
  | enter gate next ih => exact ⟨hr.1, hr.2.1, ih hr.2.2 hq⟩
  | leave gate next ih =>
    obtain ⟨hl, rest, rfl, hr⟩ := hr
    exact ⟨hl, rest, rfl, ih hr hq⟩

end

theorem Orderly.mono {low high : Nat} (h : low ≤ high) {r : Routine W α} (hr : r.Orderly high) :
    r.Orderly low := by
  intro held hl
  have higher := hr held fun g hg => (hl g hg).trans_le h
  exact higher.mono (fun _ hg => h.trans hg) fun _ _ hg => hg

theorem Orderly.composes (low : Nat) : Composes fun _ (r : Routine W _) => r.Orderly low where
  done _ _ _ := rfl
  bind hr hq hf held hl := (hr held hl).bind_of_gives hq fun a ha => hf a ha held hl

/-- What is done behind a gate may enter the gates above it. -/
theorem Orderly.holding (gate : Gate) {r : Routine W α} (hr : r.Orderly (gate.rank + 1)) :
    (holding gate r).Orderly gate.rank := by
  intro held hl
  refine ⟨le_rfl, hl, ?_⟩
  have inside : ∀ g ∈ gate :: held, g.rank < gate.rank + 1 := by
    intro g hg
    rcases List.mem_cons.mp hg with rfl | hg
    · exact Nat.lt_succ_self _
    · exact (hl g hg).trans (Nat.lt_succ_self _)
  have body := (hr _ inside).mono (fun _ hg => (Nat.le_succ _).trans hg) fun _ _ hg => hg
  refine body.bind_of_gives r.gives_trivial fun a _ => ?_
  exact ⟨le_rfl, held, rfl, rfl⟩

theorem orderly_step (low : Nat) {γ : Type} (change : W → γ × W) :
    (Routine.step change .done).Orderly low :=
  fun _ _ _ => rfl

inductive After : Routine W α → Routine W α → Prop
  | step {γ : Type} (change : W → γ × W) (next : γ → Routine W α) (c : γ) :
    After (next c) (.step change next)
  | enter (gate : Gate) (next : Routine W α) : After next (.enter gate next)
  | leave (gate : Gate) (next : Routine W α) : After next (.leave gate next)

/-- A task comes to its end after finitely many moves. -/
theorem after_wellFounded : WellFounded (After (W := W) (α := α)) := by
  refine ⟨fun r => ?_⟩
  induction r with
  | done a => exact ⟨_, fun _ h => nomatch h⟩
  | step change next ih =>
    refine ⟨_, fun _ h => ?_⟩
    cases h with
    | step _ _ c => exact ih c
  | enter gate next ih =>
    refine ⟨_, fun _ h => ?_⟩
    cases h
    exact ih
  | leave gate next ih =>
    refine ⟨_, fun _ h => ?_⟩
    cases h
    exact ih

theorem After.ne {r s : Routine W α} (h : After r s) : r ≠ s := by
  rintro rfl
  exact after_wellFounded.irrefl.irrefl r h

def Ended (r : Routine W α) : Prop := ∃ a, r = .done a

def result? : Routine W α → Option α
  | done a => some a
  | _ => none

theorem Ended.of_result? {r : Routine W α} (h : r.result?.isSome = true) : r.Ended := by
  cases r with
  | done a => exact ⟨a, rfl⟩
  | _ => contradiction

def entering? : Routine W α → Option Gate
  | enter gate _ => some gate
  | _ => none

theorem entering?_eq_some {r : Routine W α} {gate : Gate} :
    r.entering? = some gate ↔ ∃ next, r = .enter gate next := by
  cases r <;> simp [entering?]

end Routine

namespace Crowd
variable {W α : Type} {c : Crowd W α} {i : Nat}

def Ended (c : Crowd W α) : Prop := ∀ t ∈ c.tasks, t.Ended

/-- Task `i` is at a gate that task `j` holds. -/
def WaitsFor (c : Crowd W α) (i j : Nat) : Prop :=
  ∃ gate, c.tasks[i]?.bind Routine.entering? = some gate ∧ c.holder gate = some j

theorem WaitsFor.entering {j : Nat} (h : c.WaitsFor i j) :
    ∃ gate next, c.tasks[i]? = some (.enter gate next) ∧ c.holder gate = some j := by
  obtain ⟨gate, at_gate, holder⟩ := h
  obtain ⟨t, ht, hg⟩ := Option.bind_eq_some_iff.mp at_gate
  obtain ⟨next, rfl⟩ := Routine.entering?_eq_some.mp hg
  exact ⟨gate, next, ht, holder⟩

/-- Task `i` has no move to make: it has ended, or it is in line for a gate that is held or that
others are before it for. -/
def Rests (c : Crowd W α) (i : Nat) : Prop :=
  ∀ t, c.tasks[i]? = some t → t.Ended ∨ ∃ gate next, t = .enter gate next ∧ i ∈ c.line gate ∧
    ¬ (c.holder gate = none ∧ (c.line gate).head? = some i)

/-- All that the move of a task can be. -/
inductive Moved (c : Crowd W α) (i : Nat) : Prop
  | rests : c.Rests i → c.move i = c → Moved c i
  | steps {γ : Type} {change : W → γ × W} {next : γ → Routine W α} :
    c.tasks[i]? = some (.step change next) →
      c.move i = { c.proceed i (next (change c.world).1) with world := (change c.world).2 } →
        Moved c i
  | joins {gate : Gate} {next : Routine W α} :
    c.tasks[i]? = some (.enter gate next) → i ∉ c.line gate →
      c.move i = { c with line := Function.update c.line gate (c.line gate ++ [i]) } → Moved c i
  | passes {gate : Gate} {next : Routine W α} :
    c.tasks[i]? = some (.enter gate next) → c.holder gate = none →
      (c.line gate).head? = some i →
        c.move i = { c.proceed i next with
          holder := Function.update c.holder gate (some i)
          line := Function.update c.line gate (c.line gate).tail } → Moved c i
  | leaves {gate : Gate} {next : Routine W α} :
    c.tasks[i]? = some (.leave gate next) →
      c.move i = { c.proceed i next with
        holder := Function.update c.holder gate none } → Moved c i

theorem moved (c : Crowd W α) (i : Nat) : c.Moved i := by
  cases ht : c.tasks[i]? with
  | none => exact .rests (by simp [Rests, ht]) (by rw [move, ht])
  | some t =>
    cases t with
    | done a =>
      refine .rests ?_ (by rw [move, ht])
      intro t h
      exact .inl ⟨a, Option.some.inj (h.symm.trans ht)⟩
    | step change next => exact .steps ht (by rw [move, ht])
    | leave gate next => exact .leaves ht (by rw [move, ht])
    | enter gate next =>
      have hm : c.move i = c.approach i gate next := by rw [move, ht]
      unfold approach at hm
      split_ifs at hm with hi hp
      · exact .passes ht hp.1 hp.2 hm
      · refine .rests ?_ hm
        intro t h
        exact .inr ⟨gate, next, Option.some.inj (h.symm.trans ht), hi, hp⟩
      · exact .joins ht hi hm

/-- Of a task that has gone on nothing is left but what it has come to; the others are as they
were. -/
theorem proceed_cases {r t : Routine W α} {j : Nat} (h : (c.proceed i r).tasks[j]? = some t) :
    (j = i ∧ t = r) ∨ (j ≠ i ∧ c.tasks[j]? = some t) := by
  by_cases hj : j = i
  · subst hj
    obtain ⟨hlt, ht⟩ := List.getElem?_eq_some_iff.mp h
    left
    refine ⟨rfl, ?_⟩
    rw [← ht]
    exact List.getElem_set_self _
  · right
    exact ⟨hj, (List.getElem?_set_ne (Ne.symm hj)).symm.trans h⟩

theorem proceed_none {r : Routine W α} {j : Nat} (h : (c.proceed i r).tasks[j]? = none) :
    c.tasks[j]? = none := by
  simpa [proceed] using h

/-- Those in line for a gate stand at that gate, each once. -/
structure Queued (c : Crowd W α) : Prop where
  waiting : ∀ gate, ∀ i ∈ c.line gate, ∃ next, c.tasks[i]? = some (.enter gate next)
  nodup : ∀ gate, (c.line gate).Nodup

theorem start_queued (w : W) (tasks : List (Act W α)) : (start w tasks).Queued where
  waiting _ _ hi := by simp [start] at hi
  nodup _ := .nil

/-- Nobody in a line has gone on. -/
theorem Queued.waiting_proceed (h : c.Queued) {r : Routine W α} {gate : Gate} {j : Nat}
    (hj : j ∈ c.line gate) (hne : j ≠ i) :
    ∃ next, (c.proceed i r).tasks[j]? = some (.enter gate next) := by
  obtain ⟨next, ht⟩ := h.waiting gate j hj
  exact ⟨next, (List.getElem?_set_ne (Ne.symm hne)).trans ht⟩

theorem Queued.not_mem_line (h : c.Queued) {t : Routine W α} (ht : c.tasks[i]? = some t)
    {gate : Gate} (hg : ∀ next, t ≠ .enter gate next) : i ∉ c.line gate := by
  intro hi
  obtain ⟨next, hn⟩ := h.waiting gate i hi
  exact hg next (Option.some.inj (ht.symm.trans hn))

theorem Queued.join (h : c.Queued) {gate : Gate} {next : Routine W α}
    (ht : c.tasks[i]? = some (.enter gate next)) (hi : i ∉ c.line gate) :
    ({ c with line := Function.update c.line gate (c.line gate ++ [i]) } : Crowd W α).Queued where
  waiting g j hj := by
    by_cases hg : g = gate
    · subst hg
      simp only [Function.update_self, List.mem_append, List.mem_singleton] at hj
      rcases hj with hj | rfl
      · exact h.waiting g j hj
      · exact ⟨next, ht⟩
    · dsimp only at hj
      rw [Function.update_of_ne hg] at hj
      exact h.waiting g j hj
  nodup g := by
    by_cases hg : g = gate
    · subst hg
      simp only [Function.update_self]
      exact List.nodup_append_comm.mp (List.nodup_cons.mpr ⟨hi, h.nodup g⟩)
    · simp only [Function.update_of_ne hg]
      exact h.nodup g

theorem Queued.pass (h : c.Queued) {gate : Gate} {next : Routine W α}
    (ht : c.tasks[i]? = some (.enter gate next)) (first : (c.line gate).head? = some i) :
    ({ c.proceed i next with
        holder := Function.update c.holder gate (some i)
        line := Function.update c.line gate (c.line gate).tail } : Crowd W α).Queued where
  waiting g j hj := by
    dsimp only at hj
    by_cases hg : g = gate
    · subst hg
      rw [Function.update_self] at hj
      refine h.waiting_proceed (List.mem_of_mem_tail hj) ?_
      rintro rfl
      obtain ⟨rest, hr⟩ := List.head?_eq_some_iff.mp first
      have once := h.nodup g
      rw [hr] at once hj
      exact (List.nodup_cons.mp once).1 hj
    · rw [Function.update_of_ne hg] at hj
      refine h.waiting_proceed hj ?_
      rintro rfl
      refine h.not_mem_line ht ?_ hj
      rintro n ⟨⟩
      exact hg rfl
  nodup g := by
    by_cases hg : g = gate
    · subst hg
      simp only [Function.update_self]
      exact (h.nodup g).tail
    · simp only [Function.update_of_ne hg]
      exact h.nodup g

/-- Whoever is at no gate goes on without leaving a line. -/
theorem Queued.proceed (h : c.Queued) {t : Routine W α} (ht : c.tasks[i]? = some t)
    (free : ∀ gate next, t ≠ .enter gate next) (r : Routine W α) : (c.proceed i r).Queued where
  waiting gate j hj := by
    refine h.waiting_proceed hj ?_
    rintro rfl
    exact h.not_mem_line ht (free gate) hj
  nodup := h.nodup

theorem Queued.move (h : c.Queued) (i : Nat) : (c.move i).Queued := by
  cases c.moved i with
  | rests _ hm => rwa [hm]
  | joins ht hi hm => exact hm ▸ h.join ht hi
  | passes ht _ first hm => exact hm ▸ h.pass ht first
  | steps ht hm =>
    rw [hm]
    obtain ⟨waiting, nodup⟩ := h.proceed ht (by simp) _
    exact ⟨waiting, nodup⟩
  | leaves ht hm =>
    rw [hm]
    obtain ⟨waiting, nodup⟩ := h.proceed ht (by simp) _
    exact ⟨waiting, nodup⟩

/-- Each gate has the one holder that counts it among those it holds, and every task climbs. -/
structure Ranked (c : Crowd W α) (held : Nat → List Gate) : Prop where
  climbs : ∀ i (t : Routine W α), c.tasks[i]? = some t →
    t.Climbs (0 ≤ ·.rank) (·.rank < ·.rank) [] (held i)
  absent : ∀ i, c.tasks[i]? = none → held i = []
  rising : ∀ i, (held i).Pairwise fun g h => h.rank < g.rank
  holder : ∀ gate i, c.holder gate = some i ↔ gate ∈ held i

variable {held : Nat → List Gate}

theorem Ranked.step (h : c.Ranked held) {γ : Type} {change : W → γ × W} {next : γ → Routine W α}
    (ht : c.tasks[i]? = some (.step change next)) (b : γ) (world : W) :
    ({ c.proceed i (next b) with world } : Crowd W α).Ranked held where
  climbs j t hj := by
    rcases proceed_cases hj with ⟨rfl, rfl⟩ | ⟨-, hj⟩
    · exact h.climbs _ _ ht b
    · exact h.climbs j t hj
  absent j hj := h.absent j (proceed_none hj)
  rising := h.rising
  holder := h.holder

/-- Whoever has gone on climbs on with the gates that he holds now. -/
theorem Ranked.climbs_update (h : c.Ranked held) {r : Routine W α} {gates : List Gate}
    (hr : r.Climbs (0 ≤ ·.rank) (·.rank < ·.rank) [] gates) (j : Nat) (t : Routine W α)
    (hj : (c.proceed i r).tasks[j]? = some t) :
    t.Climbs (0 ≤ ·.rank) (·.rank < ·.rank) [] (Function.update held i gates j) := by
  rcases proceed_cases hj with ⟨rfl, rfl⟩ | ⟨hne, hj⟩
  · rwa [Function.update_self]
  · rw [Function.update_of_ne hne]
    exact h.climbs j t hj

theorem Ranked.absent_update (h : c.Ranked held) {t r : Routine W α} {gates : List Gate}
    (ht : c.tasks[i]? = some t) (j : Nat) (hj : (c.proceed i r).tasks[j]? = none) :
    Function.update held i gates j = [] := by
  have absent := proceed_none hj
  have hne : j ≠ i := by
    rintro rfl
    exact absurd absent (by simp [ht])
  rw [Function.update_of_ne hne]
  exact h.absent j absent

theorem Ranked.rising_update (h : c.Ranked held) {gates : List Gate}
    (rising : gates.Pairwise fun g h => h.rank < g.rank) (j : Nat) :
    (Function.update held i gates j).Pairwise fun g h => h.rank < g.rank := by
  by_cases hj : j = i
  · subst hj
    rwa [Function.update_self]
  · rw [Function.update_of_ne hj]
    exact h.rising j

/-- A task takes a gate that nobody held. -/
theorem Ranked.pass (h : c.Ranked held) {gate : Gate} {next : Routine W α}
    (ht : c.tasks[i]? = some (.enter gate next)) (free : c.holder gate = none)
    (line : Gate → List Nat) :
    ({ c.proceed i next with
        holder := Function.update c.holder gate (some i), line } : Crowd W α).Ranked
      (Function.update held i (gate :: held i)) where
  climbs := h.climbs_update (h.climbs _ _ ht).2.2
  absent := h.absent_update ht
  rising := h.rising_update (List.pairwise_cons.mpr ⟨(h.climbs _ _ ht).2.1, h.rising i⟩)
  holder g j := by
    have others : gate ∉ held j := fun hm => by simp [(h.holder gate j).mpr hm] at free
    have before := h.holder g j
    by_cases hg : g = gate <;> by_cases hj : j = i
    · subst hg hj
      simp
    · subst hg
      simp [hj, Ne.symm hj, others]
    · subst hj
      simp [hg, before]
    · simp [hg, hj, before]

theorem Ranked.leave (h : c.Ranked held) {gate : Gate} {next : Routine W α}
    (ht : c.tasks[i]? = some (.leave gate next)) :
    ({ c.proceed i next with
        holder := Function.update c.holder gate none } : Crowd W α).Ranked
      (Function.update held i (held i).tail) := by
  obtain ⟨-, rest, hrest, hn⟩ := h.climbs _ _ ht
  have rising := h.rising i
  rw [hrest, List.pairwise_cons] at rising
  have held_i := (h.holder gate i).mpr (by rw [hrest]; exact List.mem_cons_self)
  rw [hrest, List.tail_cons]
  refine ⟨h.climbs_update hn, h.absent_update ht, h.rising_update rising.2, ?_⟩
  intro g j
  have before := h.holder g j
  by_cases hg : g = gate <;> by_cases hj : j = i
  · subst hg hj
    have gone : g ∉ rest := fun hm => (rising.1 g hm).false
    simp [gone]
  · subst hg
    have others : g ∉ held j := by
      intro hm
      exact hj (Option.some.inj (((h.holder g j).mpr hm).symm.trans held_i))
    simp [hj, others]
  · subst hj
    simp [hg, before, hrest]
  · simp [hg, hj, before]

/-- What holds of the gates at any time while all tasks climb. -/
def Ordered (c : Crowd W α) : Prop := c.Queued ∧ ∃ held, c.Ranked held

theorem start_ordered {w : W} {tasks : List (Act W α)} (h : ∀ t ∈ tasks, t.run.Orderly 0) :
    (start w tasks).Ordered := by
  refine ⟨start_queued w tasks, fun _ => [], ?_, fun _ _ => rfl, fun _ => .nil, ?_⟩
  · intro i t ht
    obtain ⟨task, hm, rfl⟩ := List.mem_map.mp (List.mem_of_getElem? ht)
    exact h task hm [] (by simp)
  · simp [start]

/-- Whoever moves, the gates stay in order. -/
theorem Ordered.move (h : c.Ordered) (i : Nat) : (c.move i).Ordered := by
  obtain ⟨queued, held, ranked⟩ := h
  refine ⟨queued.move i, ?_⟩
  cases c.moved i with
  | rests _ hm => exact ⟨held, by rwa [hm]⟩
  | steps ht hm => exact ⟨held, hm ▸ ranked.step ht _ _⟩
  | joins ht hi hm => exact ⟨held, hm ▸ ⟨ranked.climbs, ranked.absent, ranked.rising, ranked.holder⟩⟩
  | passes ht free first hm => exact ⟨_, hm ▸ ranked.pass ht free _⟩
  | leaves ht hm => exact ⟨_, hm ▸ ranked.leave ht⟩

theorem Ordered.follow (h : c.Ordered) (schedule : List Nat) : (c.follow schedule).Ordered := by
  induction schedule generalizing c with
  | nil => exact h
  | cons i rest ih => exact ih (h.move i)

theorem Rests.of_move_eq (h : c.move i = c) : c.Rests i := by
  have came {r t : Routine W α} (ht : c.tasks[i]? = some t) (hr : r.After t)
      (hm : (c.move i).tasks = (c.proceed i r).tasks) : c.Rests i := by
    rw [h] at hm
    have now := proceed_task ht r
    rw [← hm, ht] at now
    exact absurd (Option.some.inj now).symm hr.ne
  cases c.moved i with
  | rests hr _ => exact hr
  | steps ht hm => exact came ht (.step _ _ _) (by rw [hm])
  | passes ht _ _ hm => exact came ht (.enter _ _) (by rw [hm])
  | leaves ht hm => exact came ht (.leave _ _) (by rw [hm])
  | @joins gate next ht hi hm =>
    rw [h] at hm
    have line : c.line gate = _ := congrFun (congrArg Crowd.line hm) gate
    simp at line

/-- The first in line for a gate that nobody holds has a move to make. -/
theorem Queued.exists_move (h : c.Queued) {gate : Gate} (hi : i ∈ c.line gate)
    (free : c.holder gate = none) : ∃ j, c.move j ≠ c := by
  obtain ⟨first, rest, hl⟩ := List.exists_cons_of_ne_nil (List.ne_nil_of_mem hi)
  obtain ⟨next, ht⟩ := h.waiting gate first (by simp [hl])
  refine ⟨first, fun still => ?_⟩
  rcases Rests.of_move_eq still _ ht with ⟨a, ha⟩ | ⟨inner, next', he, -, blocked⟩
  · contradiction
  · cases he
    exact blocked ⟨free, by simp [hl]⟩

/-- While some task holds a gate, one of all tasks has a move to make: if this one waits for a
gate, then for a higher one, and gates have only so many ranks. -/
theorem Ranked.exists_move (h : c.Ranked held) (queued : c.Queued) (n : Nat) :
    ∀ gate i, c.holder gate = some i → 3 ≤ gate.rank + n → ∃ j, c.move j ≠ c := by
  induction n with
  | zero =>
    intro gate i _ hn
    exact absurd gate.rank_lt (by omega)
  | succ n ih =>
    intro gate i hi hn
    by_cases hm : c.move i = c
    swap
    · exact ⟨i, hm⟩
    have mem := (h.holder gate i).mp hi
    cases ht : c.tasks[i]? with
    | none =>
      rw [h.absent i ht] at mem
      contradiction
    | some t =>
      have climbs := h.climbs i t ht
      rcases Rests.of_move_eq hm t ht with ⟨a, rfl⟩ | ⟨inner, next, rfl, inline, -⟩
      · have none : held i = [] := climbs
        rw [none] at mem
        contradiction
      · have higher := climbs.2.1 gate mem
        cases ho : c.holder inner with
        | some j => exact ih inner j ho (by omega)
        | none => exact queued.exists_move inline ho

/-- As long as a task has not ended, some task has a move to make. -/
theorem Ordered.exists_move (h : c.Ordered) (going : ¬ c.Ended) : ∃ i, c.move i ≠ c := by
  obtain ⟨queued, held, ranked⟩ := h
  simp only [Ended, not_forall] at going
  obtain ⟨t, hm, ht⟩ := going
  obtain ⟨i, hi⟩ := List.mem_iff_getElem?.mp hm
  by_cases still : c.move i = c
  swap
  · exact ⟨i, still⟩
  rcases Rests.of_move_eq still t hi with ended | ⟨gate, next, rfl, inline, -⟩
  · contradiction
  · cases ho : c.holder gate with
    | some j => exact ranked.exists_move queued 3 gate j ho (by omega)
    | none => exact queued.exists_move inline ho

/-- Among tasks that wait for each other one waits for none of them. -/
theorem Ordered.exists_not_waitsFor (h : c.Ordered) {group : Set Nat} (some : group.Nonempty) :
    ∃ i ∈ group, ∀ j ∈ group, ¬ c.WaitsFor i j := by
  obtain ⟨-, held, ranked⟩ := h
  by_contra! circle
  -- following the circle, one comes to ever higher gates
  have higher (n : Nat) : ∃ i ∈ group, ∃ gate next,
      c.tasks[i]? = .some (.enter gate next) ∧ n ≤ gate.rank := by
    induction n with
    | zero =>
      obtain ⟨i, hi⟩ := some
      obtain ⟨j, -, waits⟩ := circle i hi
      obtain ⟨gate, next, ht, -⟩ := waits.entering
      exact ⟨i, hi, gate, next, ht, Nat.zero_le _⟩
    | succ n ih =>
      obtain ⟨i, hi, gate, next, ht, hn⟩ := ih
      obtain ⟨j, hj, waits⟩ := circle i hi
      obtain ⟨gate', next', ht', held_j⟩ := waits.entering
      cases ht.symm.trans ht'
      obtain ⟨k, -, behind⟩ := circle j hj
      obtain ⟨inner, next'', hin, -⟩ := behind.entering
      have climbs := ranked.climbs j _ hin
      have above := climbs.2.1 gate ((ranked.holder gate j).mp held_j)
      exact ⟨j, hj, inner, next'', hin, by omega⟩
  obtain ⟨i, -, gate, next, -, hn⟩ := higher 3
  exact absurd gate.rank_lt (by omega)

/-- What is left to do: the tasks, and how many of them stand in no line. -/
noncomputable def left (c : Crowd W α) : Multiset (Routine W α) × Nat :=
  open Classical in
  (c.tasks, ((Finset.range c.tasks.length).filter fun i => ∀ gate, i ∉ c.line gate).card)

/-- Less is left to do. -/
abbrev Nearer (c d : Crowd W α) : Prop :=
  Prod.Lex (Relation.CutExpand Routine.After) (· < ·) c.left d.left

theorem nearer_wellFounded : WellFounded (Nearer (W := W) (α := α)) :=
  InvImage.wf left (WellFounded.prod_lex Routine.after_wellFounded.cutExpand Nat.lt_wfRel.wf)

theorem nearer_of_after {d : Crowd W α} {r t : Routine W α} (ht : c.tasks[i]? = some t)
    (hr : r.After t) (hd : d.tasks = c.tasks.set i r) : d.Nearer c := by
  obtain ⟨hi, rfl⟩ := List.getElem?_eq_some_iff.mp ht
  have new : (d.tasks : Multiset (Routine W α)) = r ::ₘ (c.tasks.eraseIdx i : List _) := by
    rw [hd]
    exact Multiset.coe_eq_coe.mpr (List.set_perm_cons_eraseIdx hi r)
  have old : (c.tasks : Multiset (Routine W α)) = c.tasks[i] ::ₘ (c.tasks.eraseIdx i : List _) :=
    Multiset.coe_eq_coe.mpr (List.getElem_cons_eraseIdx_perm hi).symm
  refine .left _ _ ⟨{r}, c.tasks[i], by simpa using hr, ?_⟩
  rw [new, old, ← Multiset.singleton_add, ← Multiset.singleton_add]
  ac_rfl

/-- A move that changes anything leaves less to do. -/
theorem Queued.nearer (h : c.Queued) (effective : c.move i ≠ c) :
    (c.move i).Nearer c := by
  cases c.moved i with
  | rests _ hm => contradiction
  | steps ht hm => exact nearer_of_after ht (.step _ _ _) (by rw [hm]; rfl)
  | passes ht _ _ hm => exact nearer_of_after ht (.enter _ _) (by rw [hm]; rfl)
  | leaves ht hm => exact nearer_of_after ht (.leave _ _) (by rw [hm]; rfl)
  | @joins gate next ht hi hm =>
    have others (j : Nat) (hj : ∀ g, j ∉ Function.update c.line gate (c.line gate ++ [i]) g) :
        ∀ g, j ∉ c.line g := by
      intro g
      by_cases hg : g = gate
      · subst hg
        have out := hj g
        rw [Function.update_self, List.mem_append, not_or] at out
        exact out.1
      · have out := hj g
        rwa [Function.update_of_ne hg] at out
    have alone : ∀ g, i ∉ c.line g := by
      intro g
      by_cases hg : g = gate
      · rwa [hg]
      · refine h.not_mem_line ht ?_
        rintro n ⟨⟩
        exact hg rfl
    have inside : i < c.tasks.length := (List.getElem?_eq_some_iff.mp ht).1
    rw [hm]
    refine .right _ (Finset.card_lt_card ?_)
    rw [Finset.ssubset_iff_of_subset]
    · refine ⟨i, by simpa [inside] using alone, ?_⟩
      simp only [Finset.mem_filter, not_and, not_forall, not_not]
      intro _
      exact ⟨gate, by simp⟩
    · intro j hj
      simp only [Finset.mem_filter] at hj ⊢
      exact ⟨hj.1, others j hj.2⟩

def turned (c : Crowd W α) (turns : Nat → Nat) (n : Nat) : Crowd W α :=
  c.follow ((List.range n).map turns)

/-- Every task gets its turn again and again. -/
def Fair (c : Crowd W α) (turns : Nat → Nat) : Prop :=
  ∀ i < c.tasks.length, ∀ n, ∃ m ≥ n, turns m = i

theorem turned_succ (c : Crowd W α) (turns : Nat → Nat) (n : Nat) :
    c.turned turns (n + 1) = (c.move (turns 0)).turned (fun m => turns (m + 1)) n := by
  simp [turned, List.range_succ_eq_map, follow, Function.comp_def]

theorem length_move (c : Crowd W α) (i : Nat) : (c.move i).tasks.length = c.tasks.length := by
  cases c.moved i with
  | rests _ hm | joins _ _ hm => rw [hm]
  | steps _ hm | passes _ _ _ hm | leaves _ hm =>
    rw [hm]
    exact List.length_set

theorem length_follow (c : Crowd W α) (schedule : List Nat) :
    (c.follow schedule).tasks.length = c.tasks.length := by
  induction schedule generalizing c with
  | nil => rfl
  | cons i rest ih => exact (ih _).trans (c.length_move i)

theorem Fair.move {turns : Nat → Nat} (fair : c.Fair turns) (i : Nat) :
    (c.move i).Fair fun m => turns (m + 1) := by
  intro j hj n
  rw [length_move] at hj
  obtain ⟨m, hm, rfl⟩ := fair j hj (n + 1)
  obtain ⟨m, rfl⟩ := Nat.exists_eq_add_of_le' (Nat.le_of_add_left_le hm)
  exact ⟨m, by omega, rfl⟩

/-- If there is always a move to make, all tasks end, provided each gets its turn again and
again. -/
theorem ends_of_moves {P : Crowd W α → Prop} (keeps : ∀ c, P c → ∀ i, P (c.move i))
    (queued : ∀ c, P c → c.Queued) (moves : ∀ c, P c → ¬ c.Ended → ∃ i, c.move i ≠ c) (h : P c)
    {turns : Nat → Nat} (fair : c.Fair turns) : ∃ n, (c.turned turns n).Ended := by
  induction c using nearer_wellFounded.induction generalizing turns with
  | _ c ih =>
    by_cases ended : c.Ended
    · exact ⟨0, ended⟩
    obtain ⟨i, hi⟩ := moves c h ended
    have inside : i < c.tasks.length := by
      by_contra out
      refine hi ?_
      rw [move, List.getElem?_eq_none (Nat.le_of_not_lt out)]
    obtain ⟨m, -, hm⟩ := fair i inside 0
    -- until a move changes something, the task that could move keeps its move
    induction m generalizing turns with
    | zero =>
      have nearer := (queued c h).nearer (hm ▸ hi)
      obtain ⟨n, hn⟩ := ih _ nearer (keeps c h _) (fair.move (turns 0))
      exact ⟨n + 1, by rwa [turned_succ]⟩
    | succ m again =>
      by_cases still : c.move (turns 0) = c
      · have later := fair.move (turns 0)
        rw [still] at later
        obtain ⟨n, hn⟩ := again later hm
        exact ⟨n + 1, by rwa [turned_succ, still]⟩
      · obtain ⟨n, hn⟩ := ih _ ((queued c h).nearer still) (keeps c h _) (fair.move (turns 0))
        exact ⟨n + 1, by rwa [turned_succ]⟩

/-- Tasks that keep to the order of the gates all end. -/
theorem Ordered.ends (h : c.Ordered) {turns : Nat → Nat} (fair : c.Fair turns) :
    ∃ n, (c.turned turns n).Ended :=
  ends_of_moves (fun _ => Ordered.move) (fun _ h => h.1) (fun _ => Ordered.exists_move) h fair

end Crowd
end DataAccess
