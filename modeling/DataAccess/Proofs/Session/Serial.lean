import DataAccess.Proofs.Session.Gates
import DataAccess.Queue

/-!
Tasks that have one gate for themselves all the time are served one after the other, in the order
in which they come to it, as by a queue.
-/
namespace DataAccess

namespace Queue
variable {σ α : Type}

theorem serveAll_append (q : Queue σ) (first rest : List (σ → α × σ)) :
    q.serveAll (first ++ rest) =
      ((q.serveAll first).1 ++ ((q.serveAll first).2.serveAll rest).1,
        ((q.serveAll first).2.serveAll rest).2) := by
  induction first generalizing q with
  | nil => rfl
  | cons task others ih => simp [serveAll, ih]

end Queue

namespace Routine
variable {W α : Type}

/-- A task that has nothing to do with the gate, and enters no gate that it holds already. -/
abbrev Aloof (gate : Gate) (r : Routine W α) : Prop := r.Climbs (· ≠ gate) (· ≠ ·) [] []

/-- Gates of rank `low` and above are others than those below. -/
theorem Orderly.aloof {low : Nat} {r : Routine W α} (h : r.Orderly low) {gate : Gate}
    (lower : gate.rank < low) : r.Aloof gate := by
  have climbs := h [] (by simp)
  refine climbs.mono ?_ ?_
  · rintro g hg rfl
    omega
  · rintro g _ hg rfl
    omega

end Routine

namespace Crowd
variable {W α : Type} {gate : Gate} {body : Nat → Routine W α} {k : Nat} {q : Queue W}
  {c : Crowd W α} {served arrived : List Nat} {i : Nat}
open Routine

def behind (gate : Gate) (body : Nat → Routine W α) (k : Nat) (w : W) : Crowd W α :=
  { world := w, tasks := (List.range k).map fun i => holding gate (body i) }

def arrivals (k : Nat) (schedule : List Nat) : List Nat := (schedule.filter (· < k)).eraseDups

/-- What a queue makes of the bodies in this order: their results, and the queue after them. -/
def inTurn (body : Nat → Routine W α) (q : Queue W) (order : List Nat) : List α × Queue W :=
  q.serveAll (order.map fun i => (body i).run)

theorem inTurn_concat (order : List Nat) (i : Nat) :
    inTurn body q (order ++ [i]) =
      ((inTurn body q order).1 ++ [((body i).run (inTurn body q order).2.state).1],
        ((inTurn body q order).2.serve (body i).run).2) := by
  rw [inTurn, List.map_append, Queue.serveAll_append]
  rfl

/-- Of the tasks behind a gate those in `served` are done, those in `current` are not yet but have
come in, and all others are still outside. -/
structure Lined (gate : Gate) (body : Nat → Routine W α) (k : Nat) (q : Queue W) (c : Crowd W α)
    (served current : List Nat) : Prop where
  length : c.tasks.length = k
  nodup : (served ++ current ++ c.line gate).Nodup
  known : ∀ i ∈ served ++ current ++ c.line gate, i < k
  results : served.map (fun i => c.tasks[i]?) =
    (inTurn body q served).1.map fun a => some (Routine.done a)
  outside : ∀ i < k, i ∉ served ++ current → c.tasks[i]? = some (holding gate (body i))
  elsewhere : ∀ other, other ≠ gate → ∀ i ∈ c.line other, i ∈ current

/-- The tasks behind a gate are served in the order of arrival: nobody is in at the moment, or one
is, and what is left for him comes to what his body would have come to by itself. -/
inductive Serial (gate : Gate) (body : Nat → Routine W α) (k : Nat) (q : Queue W)
    (c : Crowd W α) : List Nat → List Nat → Prop
  | idle {served : List Nat} :
    Lined gate body k q c served [] → (∀ g, c.holder g = none) →
      c.world = (inTurn body q served).2.state →
        Serial gate body k q c served (served ++ c.line gate)
  | busy {served : List Nat} {i : Nat} {left : Routine W α} {held : List Gate} :
    Lined gate body k q c served [i] →
      (∀ g, c.holder g = if g = gate ∨ g ∈ held then some i else none) →
      c.tasks[i]? = some (left.bind fun a => .leave gate (.done a)) →
      left.run c.world = (body i).run (inTurn body q served).2.state →
      left.Climbs (· ≠ gate) (· ≠ ·) [] held → held.Nodup →
        Serial gate body k q c served (served ++ [i] ++ c.line gate)

theorem serial_start (gate : Gate) (body : Nat → Routine W α) (k : Nat) (q : Queue W) :
    Serial gate body k q (behind gate body k q.state) [] [] := by
  refine .idle ⟨by simp [behind], .nil, by simp [behind], rfl, ?_, by simp [behind]⟩
    (fun _ => rfl) rfl
  intro i hi _
  simp [behind, hi]

theorem arrivals_concat (k : Nat) (schedule : List Nat) (i : Nat) :
    arrivals k (schedule ++ [i]) = if i < k ∧ i ∉ arrivals k schedule then
      arrivals k schedule ++ [i] else arrivals k schedule := by
  simp only [arrivals, List.filter_append, List.eraseDups_append, List.mem_eraseDups]
  by_cases hk : i < k
  · by_cases hi : i ∈ schedule.filter (· < k)
    · have again : [i].removeAll (schedule.filter (· < k)) = [] := by
        simpa [List.removeAll] using List.mem_filter.mp hi
      simp [hk, hi, again]
    · have new : [i].removeAll (schedule.filter (· < k)) = [i] := by
        have absent : i ∉ schedule := fun hm => hi (List.mem_filter.mpr ⟨hm, by simpa⟩)
        simp [List.removeAll, absent]
      simp [hk, hi, new, List.eraseDups_cons]
  · simp [hk, List.removeAll]

/-- Nobody comes twice. -/
theorem Lined.not_served {current : List Nat} (h : Lined gate body k q c served current)
    (hi : i ∈ current ++ c.line gate) : i ∉ served := by
  have nodup := h.nodup
  rw [List.append_assoc] at nodup
  intro hm
  exact (List.nodup_append.mp nodup).2.2 i hm i hi rfl

/-- A move of a task that is not done leaves the results as they are. -/
theorem Lined.results_move {current : List Nat} (h : Lined gate body k q c served current)
    (hi : i ∉ served) : served.map (fun j => (c.move i).tasks[j]?) =
      (inTurn body q served).1.map fun a => some (Routine.done a) := by
  rw [← h.results]
  apply List.map_congr_left
  rintro j hj
  apply c.move_task_ne
  rintro rfl
  contradiction

theorem Lined.length_move {current : List Nat} (h : Lined gate body k q c served current)
    (i : Nat) : (c.move i).tasks.length = k :=
  (c.length_move i).trans h.length

/-- One more task comes to the gate. -/
theorem Lined.join {current : List Nat} (h : Lined gate body k q c served current) (hi : i < k)
    (new : i ∉ served ++ current ++ c.line gate) :
    Lined gate body k q
      { c with line := Function.update c.line gate (c.line gate ++ [i]) } served current where
  length := h.length
  nodup := by
    simp only [Function.update_self, ← List.append_assoc]
    exact List.nodup_append_comm.mp (List.nodup_cons.mpr ⟨new, h.nodup⟩)
  known j hj := by
    simp only [Function.update_self, ← List.append_assoc] at hj
    rcases List.mem_append.mp hj with hj | hj
    · exact h.known j hj
    · rwa [List.mem_singleton.mp hj]
  results := h.results
  outside := h.outside
  elsewhere other ho j hj := by
    dsimp only at hj
    rw [Function.update_of_ne ho] at hj
    exact h.elsewhere other ho j hj

/-- The first in line comes in. -/
theorem Lined.enter (h : Lined gate body k q c served []) {rest : List Nat}
    (first : c.line gate = i :: rest)
    (line : (c.move i).line = Function.update c.line gate rest) :
    Lined gate body k q (c.move i) served [i] := by
  have same : served ++ [i] ++ (c.move i).line gate = served ++ [] ++ c.line gate := by
    simp [line, first]
  have hi : i ∉ served := h.not_served (by simp [first])
  refine ⟨h.length_move i, by rw [same]; exact h.nodup, by rw [same]; exact h.known,
    h.results_move hi, ?_, ?_⟩
  · intro j hj out
    simp only [List.mem_append, List.mem_singleton, not_or] at out
    rw [c.move_task_ne (Ne.symm out.2)]
    exact h.outside j hj (by simpa using out.1)
  · intro other ho j hj
    rw [line, Function.update_of_ne ho] at hj
    exact absurd (h.elsewhere other ho j hj) List.not_mem_nil

theorem Lined.alone (h : Lined gate body k q c served [i]) (g : Gate) (hg : g ≠ gate) :
    ∀ j ∈ c.line g, j = i :=
  fun j hj => List.mem_singleton.mp (h.elsewhere g hg j hj)

theorem Lined.outside_move (h : Lined gate body k q c served [i]) {j : Nat} (hj : j < k)
    (out : j ∉ served ++ [i]) : (c.move i).tasks[j]? = some (holding gate (body j)) := by
  have ne : i ≠ j := by
    rintro rfl
    simp at out
  rw [c.move_task_ne ne]
  exact h.outside j hj out

/-- Whoever is in goes on. -/
theorem Lined.go_on (h : Lined gate body k q c served [i])
    (line : (c.move i).line gate = c.line gate)
    (elsewhere : ∀ other, other ≠ gate → ∀ j ∈ (c.move i).line other, j = i) :
    Lined gate body k q (c.move i) served [i] := by
  refine ⟨h.length_move i, by rw [line]; exact h.nodup, by rw [line]; exact h.known,
    h.results_move (h.not_served (by simp)), fun j => h.outside_move, ?_⟩
  intro other ho j hj
  exact List.mem_singleton.mpr (elsewhere other ho j hj)

/-- Whoever is in is done, and goes. -/
theorem Lined.leave (h : Lined gate body k q c served [i])
    (result : (c.move i).tasks[i]? =
      some (.done ((body i).run (inTurn body q served).2.state).1))
    (line : (c.move i).line = c.line) (elsewhere : ∀ other, i ∉ c.line other) :
    Lined gate body k q (c.move i) (served ++ [i]) [] := by
  refine ⟨h.length_move i, by simpa [line] using h.nodup, by simpa [line] using h.known,
    ?_, ?_, ?_⟩
  · rw [inTurn_concat, List.map_append, List.map_append, h.results_move (h.not_served (by simp))]
    simp [result]
  · intro j hj out
    exact h.outside_move hj (by simpa using out)
  · intro other ho j hj
    rw [line] at hj
    obtain rfl := List.mem_singleton.mp (h.elsewhere other ho j hj)
    exact absurd hj (elsewhere other)

/-- Nobody but the one who is in stands in another line, also after a change of one line that brings
only him. -/
theorem Lined.alone_update (h : Lined gate body k q c served [i]) {other : Gate} {line : List Nat}
    (changed : ∀ j ∈ line, j ∈ c.line other ∨ j = i) (g : Gate) (hg : g ≠ gate) :
    ∀ j ∈ Function.update c.line other line g, j = i := by
  intro j hj
  by_cases same : g = other
  · subst same
    rw [Function.update_self] at hj
    rcases changed j hj with hj | hj
    · exact h.alone g hg j hj
    · exact hj
  · rw [Function.update_of_ne same] at hj
    exact h.alone g hg j hj

/-- Whoever is in has moved and is still in. -/
theorem Serial.still_busy {d : Crowd W α} {left : Routine W α} {held : List Gate}
    (lined : Lined gate body k q c served [i]) (moved : c.move i = d)
    (line : d.line gate = c.line gate) (elsewhere : ∀ g, g ≠ gate → ∀ j ∈ d.line g, j = i)
    (holder : ∀ g, d.holder g = if g = gate ∨ g ∈ held then some i else none)
    (ht : d.tasks[i]? = some (left.bind fun a => .leave gate (.done a)))
    (run : left.run d.world = (body i).run (inTurn body q served).2.state)
    (climbs : left.Climbs (· ≠ gate) (· ≠ ·) [] held) (nodup : held.Nodup) :
    ∃ served', Serial gate body k q (c.move i) served' (served ++ [i] ++ c.line gate) := by
  subst moved
  rw [← line]
  exact ⟨served, .busy (lined.go_on line elsewhere) holder ht run climbs nodup⟩

/-- Whoever is in is done, and moves out. -/
theorem Serial.move_done (queued : c.Queued) {a : α} (lined : Lined gate body k q c served [i])
    (holder : ∀ g, c.holder g = if g = gate then some i else none)
    (ht : c.tasks[i]? = some (.leave gate (.done a)))
    (run : (a, c.world) = (body i).run (inTurn body q served).2.state) :
    ∃ served', Serial gate body k q (c.move i) served' (served ++ [i] ++ c.line gate) := by
  have hm : c.move i = { c.proceed i (.done a) with
      holder := Function.update c.holder gate none } := by rw [move, ht]
  obtain ⟨result, world⟩ := Prod.ext_iff.mp run
  have gone (other : Gate) : i ∉ c.line other := by
    apply queued.not_mem_line ht
    intro next h
    contradiction
  have line : (c.move i).line = c.line := by rw [hm]; rfl
  have done : (c.move i).tasks[i]? =
      some (.done ((body i).run (inTurn body q served).2.state).1) := by
    rw [hm, ← result]
    exact proceed_task ht _
  refine ⟨served ++ [i], line ▸ .idle (lined.leave done line gone) ?_ ?_⟩
  · intro g
    rw [hm]
    by_cases hg : g = gate
    · simp [hg]
    · simp [hg, holder]
  · rw [hm, inTurn_concat]
    exact world

/-- Whoever is in comes to another gate, where he may have to wait. -/
theorem Serial.move_enter {other : Gate} {next : Routine W α} {held : List Gate}
    (lined : Lined gate body k q c served [i])
    (holder : ∀ g, c.holder g = if g = gate ∨ g ∈ held then some i else none)
    (ht : c.tasks[i]? = some ((enter other next).bind fun a => .leave gate (.done a)))
    (run : (enter other next).run c.world = (body i).run (inTurn body q served).2.state)
    (climbs : (enter other next).Climbs (· ≠ gate) (· ≠ ·) [] held) (nodup : held.Nodup) :
    ∃ served', Serial gate body k q (c.move i) served' (served ++ [i] ++ c.line gate) := by
  have waiting := climbs
  obtain ⟨ho, new, climbs⟩ := climbs
  have fresh : other ∉ held := fun hm => new other hm rfl
  cases c.moved i with
  | rests _ hm =>
    rw [hm]
    exact ⟨served, .busy lined holder ht run waiting nodup⟩
  | steps ht' | leaves ht' => cases ht.symm.trans ht'
  | joins ht' _ hm =>
    cases ht.symm.trans ht'
    refine still_busy lined hm (Function.update_of_ne ho.symm _ _) ?_ holder ht run waiting nodup
    apply lined.alone_update
    intro j hj
    rwa [List.mem_append, List.mem_singleton] at hj
  | passes ht' _ _ hm =>
    cases ht.symm.trans ht'
    refine still_busy lined hm (Function.update_of_ne ho.symm _ _) ?_ ?_ (proceed_task ht _) run
      climbs (List.nodup_cons.mpr ⟨fresh, nodup⟩)
    · apply lined.alone_update
      exact fun j hj => .inl (List.mem_of_mem_tail hj)
    · intro g
      by_cases same : g = other
      · simp [same]
      · simp [same, holder]

/-- Whoever is in leaves another gate. -/
theorem Serial.move_leave {other : Gate} {next : Routine W α} {held : List Gate}
    (lined : Lined gate body k q c served [i])
    (holder : ∀ g, c.holder g = if g = gate ∨ g ∈ held then some i else none)
    (ht : c.tasks[i]? = some ((leave other next).bind fun a => .leave gate (.done a)))
    (run : (leave other next).run c.world = (body i).run (inTurn body q served).2.state)
    (climbs : (leave other next).Climbs (· ≠ gate) (· ≠ ·) [] held) (nodup : held.Nodup) :
    ∃ served', Serial gate body k q (c.move i) served' (served ++ [i] ++ c.line gate) := by
  obtain ⟨ho, rest, rfl, climbs⟩ := climbs
  obtain ⟨gone, nodup⟩ := List.nodup_cons.mp nodup
  have hm : c.move i = { c.proceed i (next.bind fun a => .leave gate (.done a)) with
      holder := Function.update c.holder other none } := by rw [move, ht]; rfl
  refine still_busy lined hm rfl lined.alone ?_ (proceed_task ht _) run climbs nodup
  intro g
  by_cases same : g = other
  · subst same
    simp [ho, gone]
  · simp [same, holder]

/-- A move of the one who is in, one case for each kind of move. -/
theorem Serial.move_current (queued : c.Queued) {left : Routine W α} {held : List Gate}
    (lined : Lined gate body k q c served [i])
    (holder : ∀ g, c.holder g = if g = gate ∨ g ∈ held then some i else none)
    (ht : c.tasks[i]? = some (left.bind fun a => .leave gate (.done a)))
    (run : left.run c.world = (body i).run (inTurn body q served).2.state)
    (climbs : left.Climbs (· ≠ gate) (· ≠ ·) [] held) (nodup : held.Nodup) :
    ∃ served', Serial gate body k q (c.move i) served' (served ++ [i] ++ c.line gate) := by
  cases left with
  | done a =>
    obtain rfl : held = [] := climbs
    exact move_done queued lined (by simpa using holder) ht run
  | step change next =>
    have hm : c.move i = { c.proceed i ((next (change c.world).1).bind fun a =>
        .leave gate (.done a)) with world := (change c.world).2 } := by rw [move, ht]; rfl
    exact still_busy lined hm rfl lined.alone holder (proceed_task ht _) run
      (climbs (change c.world).1) nodup
  | enter other next => exact move_enter lined holder ht run climbs nodup
  | leave other next => exact move_leave lined holder ht run climbs nodup

/-- Whoever does not exist or is done has no move. -/
theorem Lined.move_out {current : List Nat} (h : Lined gate body k q c served current)
    (out : ¬ i < k ∨ i ∈ served) : c.move i = c := by
  rcases out with hk | hs
  · have none : c.tasks[i]? = none := by
      apply List.getElem?_eq_none
      rw [h.length]
      omega
    rw [Crowd.move, none]
  · have known : c.tasks[i]? ∈ served.map fun i => c.tasks[i]? := List.mem_map.mpr ⟨i, hs, rfl⟩
    rw [h.results] at known
    obtain ⟨a, -, ha⟩ := List.mem_map.mp known
    rw [Crowd.move, ← ha]

theorem Lined.move_join {current : List Nat} (h : Lined gate body k q c served current)
    (hk : i < k) (new : i ∉ served ++ current ++ c.line gate) :
    c.move i = { c with line := Function.update c.line gate (c.line gate ++ [i]) } := by
  rw [List.mem_append, not_or] at new
  rw [Crowd.move, h.outside i hk new.1]
  exact if_neg new.2

/-- The gate is free, and its line moves up. -/
theorem Serial.move_idle (aloof : ∀ i < k, (body i).Aloof gate)
    (lined : Lined gate body k q c served []) (free : ∀ g, c.holder g = none)
    (world : c.world = (inTurn body q served).2.state) (hi : i ∈ c.line gate) :
    ∃ served', Serial gate body k q (c.move i) served' (served ++ c.line gate) := by
  have hk : i < k := lined.known i (by simp [hi])
  have hs : i ∉ served := lined.not_served (by simpa)
  have ht := lined.outside i hk (by simpa)
  cases c.moved i with
  | rests _ hm =>
    rw [hm]
    exact ⟨served, .idle lined free world⟩
  | steps ht' | leaves ht' => cases ht.symm.trans ht'
  | joins ht' hl hm =>
    cases ht.symm.trans ht'
    contradiction
  | passes ht' _ first hm =>
    cases ht.symm.trans ht'
    obtain ⟨rest, hrest⟩ := List.head?_eq_some_iff.mp first
    have line : (c.move i).line = Function.update c.line gate rest := by
      rw [hm, hrest]
      rfl
    have at_gate : (c.move i).line gate = rest := by rw [line, Function.update_self]
    have order : served ++ c.line gate = served ++ [i] ++ (c.move i).line gate := by
      simp [hrest, at_gate]
    refine ⟨served, order ▸ .busy (lined.enter hrest line) ?_ ?_ ?_ (aloof i hk) List.nodup_nil⟩
    · intro g
      rw [hm]
      by_cases hg : g = gate
      · simp [hg]
      · simp [hg, free]
    · rw [hm]
      exact proceed_task ht _
    · rw [hm, ← world]
      rfl

/-- Every move keeps the order of service, and whoever moves for the first time comes last. -/
theorem Serial.move (aloof : ∀ i < k, (body i).Aloof gate) (queued : c.Queued)
    (h : Serial gate body k q c served arrived) (i : Nat) :
    ∃ served', Serial gate body k q (c.move i) served'
      (if i < k ∧ i ∉ arrived then arrived ++ [i] else arrived) := by
  cases h with
  | idle lined free world =>
    by_cases out : ¬ i < k ∨ i ∈ served
    · rw [if_neg (by rcases out with hk | hs <;> simp [*]), lined.move_out out]
      exact ⟨served, .idle lined free world⟩
    obtain ⟨hk, hs⟩ : i < k ∧ i ∉ served := by tauto
    by_cases hl : i ∈ c.line gate
    · rw [if_neg (by simp [hl])]
      exact move_idle aloof lined free world hl
    · have new : i ∉ served ++ [] ++ c.line gate := by simp [hs, hl]
      have order : served ++ c.line gate ++ [i] =
          served ++ Function.update c.line gate (c.line gate ++ [i]) gate := by simp
      rw [if_pos ⟨hk, by simp [hs, hl]⟩, lined.move_join hk new, order]
      exact ⟨served, .idle (lined.join hk new) free world⟩
  | @busy j _ _ lined holder hj run climbs nodup =>
    by_cases out : ¬ i < k ∨ i ∈ served
    · rw [if_neg (by rcases out with hk | hs <;> simp [*]), lined.move_out out]
      exact ⟨served, .busy lined holder hj run climbs nodup⟩
    obtain ⟨hk, hs⟩ : i < k ∧ i ∉ served := by tauto
    by_cases same : i = j
    · subst same
      rw [if_neg (by simp)]
      exact move_current queued lined holder hj run climbs nodup
    by_cases hl : i ∈ c.line gate
    · have still : c.move i = c := by
        rw [Crowd.move, lined.outside i hk (by simp [hs, same])]
        refine (if_pos hl).trans (if_neg ?_)
        simp [holder]
      rw [if_neg (by simp [hl]), still]
      exact ⟨served, .busy lined holder hj run climbs nodup⟩
    · have new : i ∉ served ++ [j] ++ c.line gate := by simp [hs, hl, same]
      have order : served ++ [j] ++ c.line gate ++ [i] =
          served ++ [j] ++ Function.update c.line gate (c.line gate ++ [i]) gate := by simp
      rw [if_pos ⟨hk, by simpa using new⟩, lined.move_join hk new, order]
      exact ⟨served, .busy (lined.join hk new) holder hj run climbs nodup⟩

/-- What holds at any time of tasks that started behind a gate. -/
theorem serial_follow (aloof : ∀ i < k, (body i).Aloof gate) (schedule : List Nat) :
    ((behind gate body k q.state).follow schedule).Queued ∧ ∃ served,
      Serial gate body k q ((behind gate body k q.state).follow schedule) served
        (arrivals k schedule) := by
  induction schedule using List.reverseRecOn with
  | nil => exact ⟨⟨fun _ _ h => (nomatch h), fun _ => .nil⟩, [], serial_start gate body k q⟩
  | append_singleton schedule i ih =>
    obtain ⟨queued, served, serial⟩ := ih
    rw [follow_concat, arrivals_concat]
    exact ⟨queued.move i, serial.move aloof queued i⟩

/-- As long as not all are done, one of them has a move to make. -/
theorem Serial.exists_move (queued : c.Queued) (h : Serial gate body k q c served arrived)
    (going : ¬ c.Ended) : ∃ i, c.move i ≠ c := by
  by_contra! still
  cases h with
  | idle lined free world =>
    simp only [Ended, not_forall] at going
    obtain ⟨t, hm, ht⟩ := going
    obtain ⟨i, hi⟩ := List.mem_iff_getElem?.mp hm
    rcases Rests.of_move_eq (still i) t hi with ended | ⟨g, next, rfl, inline, -⟩
    · contradiction
    · obtain ⟨j, hj⟩ := queued.exists_move inline (free g)
      exact hj (still j)
  | @busy i left held lined holder hi run climbs nodup =>
    rcases Rests.of_move_eq (still i) _ hi with ⟨a, ha⟩ | ⟨g, next, hg, inline, blocked⟩
    · cases left <;> contradiction
    · cases left with
      | enter other next =>
        cases hg
        obtain ⟨ho, new, -⟩ := climbs
        refine blocked ⟨?_, ?_⟩
        · have fresh : g ∉ held := fun hm => new g hm rfl
          rw [holder, if_neg (by tauto)]
        · obtain ⟨first, rest, hl⟩ := List.exists_cons_of_ne_nil (List.ne_nil_of_mem inline)
          have mine := lined.elsewhere g ho first (by simp [hl])
          rw [hl, List.mem_singleton.mp mine]
          rfl
      | _ => contradiction

/-- If each gets its turn again and again, all are served. -/
theorem behind_ends (aloof : ∀ i < k, (body i).Aloof gate) (schedule : List Nat)
    {turns : Nat → Nat} (fair : ((behind gate body k q.state).follow schedule).Fair turns) :
    ∃ n, (((behind gate body k q.state).follow schedule).turned turns n).Ended := by
  let P (c : Crowd W α) : Prop := c.Queued ∧ ∃ served arrived, Serial gate body k q c served arrived
  have now : P ((behind gate body k q.state).follow schedule) := by
    obtain ⟨queued, served, serial⟩ := serial_follow (q := q) aloof schedule
    exact ⟨queued, served, _, serial⟩
  refine ends_of_moves (P := P) ?_ (fun _ h => h.1) ?_ now fair
  · rintro c ⟨queued, served, arrived, serial⟩ i
    obtain ⟨served', serial'⟩ := serial.move aloof queued i
    exact ⟨queued.move i, served', _, serial'⟩
  · rintro c ⟨queued, served, arrived, serial⟩
    exact serial.exists_move queued

/-- When all are done, they have been served in the order of arrival, each once. -/
theorem served_in_turn (aloof : ∀ i < k, (body i).Aloof gate) (schedule : List Nat)
    (ended : ((behind gate body k q.state).follow schedule).Ended) :
    let now := (behind gate body k q.state).follow schedule
    (arrivals k schedule).Perm (List.range k) ∧
      now.world = (inTurn body q (arrivals k schedule)).2.state ∧
      (arrivals k schedule).map (fun i => now.tasks[i]?) =
        (inTurn body q (arrivals k schedule)).1.map fun a => some (.done a) := by
  intro now
  obtain ⟨-, served, serial⟩ := serial_follow (q := q) aloof schedule
  have going {i : Nat} {t : Routine W α} (ht : now.tasks[i]? = some t) : t.Ended :=
    ended t (List.mem_of_getElem? ht)
  generalize arrivals k schedule = arrived at serial
  cases serial with
  | idle lined free world =>
    have all (i : Nat) (hi : i < k) : i ∈ served := by
      by_contra hs
      obtain ⟨a, ha⟩ := going (lined.outside i hi (by simpa))
      contradiction
    have empty : now.line gate = [] := by
      apply List.eq_nil_iff_forall_not_mem.mpr
      intro i hi
      exact lined.not_served (by simpa) (all i (lined.known i (List.mem_append_right _ hi)))
    have nodup : (served ++ [] ++ now.line gate).Nodup := lined.nodup
    rw [empty, List.append_nil, List.append_nil] at nodup
    rw [empty, List.append_nil]
    refine ⟨?_, world, lined.results⟩
    apply (List.perm_ext_iff_of_nodup nodup List.nodup_range).mpr
    intro i
    rw [List.mem_range]
    exact ⟨fun hs => lined.known i (by simp [hs]), all i⟩
  | @busy i left held lined holder hi run climbs nodup =>
    obtain ⟨a, ha⟩ := going hi
    cases left <;> contradiction

end Crowd
end DataAccess
