import DataAccess.Proofs.Session.Crowd

/-!
What is behind a gate changes only while somebody holds the gate, and only as its holder changes
it. So a task that holds the gate knows what is behind it, whatever the others do meanwhile.
-/
namespace DataAccess

/-- What is seen of a task: what it finds behind the gate as it enters, what it leaves there, and
what its changes of the world show. -/
inductive Sight (S E : Type) where
  | entered (s : S)
  | left (s : S)
  | seen (e : E)
  deriving DecidableEq

/-- A gate and what is behind it. At any time `base` holds. A task changes the world as the law has
it, which may go by what the task knows to be behind the gate and by what was seen of it before. -/
structure Guard (W S E : Type) where
  gate : Gate
  view : W → S
  base : W → Prop
  shown : W → W → List E
  law : Option S → List (Sight S E) → W → W → Prop
  shown_self : ∀ w, shown w w = []
  law_self : ∀ known past w, law known past w w

/-- Who sees what he knew knows as much as before. -/
theorem known_of_view {S : Type} {known : Option S} {s : S} (h : ∀ t ∈ known, s = t) :
    (known.map fun _ => s) = known := by
  cases known with
  | none => rfl
  | some t => rw [Option.map_some, h t rfl]

namespace Guard
variable {W S E α β : Type} {G : Guard W S E} {known : Option S} {past : List (Sight S E)}

/-- However the world changes in front of the gate, and while the task does not hold the gate also
behind it: the task keeps to the law, and when it ends, `Q` holds of what it knows then to be behind
the gate, of what was seen of it, and of its result. -/
def Secures (G : Guard W S E) : Option S → List (Sight S E) → Routine W α →
    (Option S → List (Sight S E) → α → Prop) → Prop
  | known, past, .done a, Q => Q known past a
  | known, past, .step change next, Q => ∀ w, G.base w → (∀ s ∈ known, G.view w = s) →
    G.base (change w).2 ∧ G.law known past w (change w).2 ∧
      (known = none → G.view (change w).2 = G.view w) ∧
      Secures G (known.map fun _ => G.view (change w).2)
        (past ++ (G.shown w (change w).2).map .seen) (next (change w).1) Q
  | known, past, .enter gate next, Q =>
    if gate = G.gate then
      known = none ∧ ∀ s, Secures G (some s) (past ++ [.entered s]) next Q
    else Secures G known past next Q
  | known, past, .leave gate next, Q =>
    if gate = G.gate then ∃ s, known = some s ∧ Secures G none (past ++ [.left s]) next Q
    else Secures G known past next Q

def Free (known : Option S) (_ : List (Sight S E)) (_ : α) : Prop := known = none

/-- Of the results that a task gives, something else may be enough. -/
theorem Secures.mono_of_gives {P : α → Prop} {Q R : Option S → List (Sight S E) → α → Prop}
    {r : Routine W α} (hr : G.Secures known past r Q) (gives : r.Gives P)
    (h : ∀ known past a, P a → Q known past a → R known past a) : G.Secures known past r R := by
  induction r generalizing known past with
  | done a => exact h _ _ a gives hr
  | step change next ih =>
    intro w hb hk
    obtain ⟨base, law, view, rest⟩ := hr w hb hk
    exact ⟨base, law, view, ih _ rest (gives _)⟩
  | enter gate next ih =>
    simp only [Secures] at hr ⊢
    split_ifs at hr ⊢
    · exact ⟨hr.1, fun s => ih (hr.2 s) gives⟩
    · exact ih hr gives
  | leave gate next ih =>
    simp only [Secures] at hr ⊢
    split_ifs at hr ⊢
    · obtain ⟨s, hs, hr⟩ := hr
      exact ⟨s, hs, ih hr gives⟩
    · exact ih hr gives

theorem Secures.mono {Q R : Option S → List (Sight S E) → α → Prop} {r : Routine W α}
    (hr : G.Secures known past r Q) (h : ∀ known past a, Q known past a → R known past a) :
    G.Secures known past r R :=
  hr.mono_of_gives r.gives_trivial fun known past a _ => h known past a

theorem Secures.free_of_enter {r : Routine W α} {Q : Option S → List (Sight S E) → α → Prop}
    (h : G.Secures known past (.enter G.gate r) Q) : known = none := by
  rw [Secures, if_pos rfl] at h
  exact h.1

theorem Secures.bind {Q : Option S → List (Sight S E) → β → Prop} {r : Routine W α}
    {f : α → Routine W β}
    (h : G.Secures known past r fun known past a => G.Secures known past (f a) Q) :
    G.Secures known past (r.bind f) Q := by
  induction r generalizing known past with
  | done a => exact h
  | step change next ih =>
    intro w hb hk
    obtain ⟨base, law, view, rest⟩ := h w hb hk
    exact ⟨base, law, view, ih _ rest⟩
  | enter gate next ih =>
    simp only [Secures, Routine.bind] at h ⊢
    split_ifs at h ⊢
    · exact ⟨h.1, fun s => ih (h.2 s)⟩
    · exact ih h
  | leave gate next ih =>
    simp only [Secures, Routine.bind] at h ⊢
    split_ifs at h ⊢
    · obtain ⟨s, hs, h⟩ := h
      exact ⟨s, hs, ih h⟩
    · exact ih h

def Quiet (G : Guard W S E) (r : Routine W α) : Prop :=
  ∀ known past, G.Secures known past r fun known' past' _ => known' = known ∧ past' = past

theorem Quiet.secures {Q : Option S → List (Sight S E) → α → Prop} {r : Routine W α}
    (h : G.Quiet r) (hq : ∀ a, Q known past a) : G.Secures known past r Q := by
  refine (h known past).mono ?_
  rintro _ _ a ⟨rfl, rfl⟩
  exact hq a

theorem Secures.act_bind {task : Act W α} {next : α → Act W β}
    {Q : Option S → List (Sight S E) → Except Error β → Prop}
    (h : G.Secures known past task.run fun known past o =>
      match o with
      | .ok a => G.Secures known past (next a).run Q
      | .error e => Q known past (.error e)) : G.Secures known past (task >>= next).run Q := by
  refine Secures.bind (h.mono fun known past o ho => ?_)
  cases o with
  | ok a => exact ho
  | error e => exact ho

/-- What comes after a task goes on whether or not the task has failed. -/
theorem Secures.outcome_bind {task : Act W α} {next : Except Error α → Act W β}
    {Q : Option S → List (Sight S E) → Except Error β → Prop}
    (h : G.Secures known past task.run fun known past o => G.Secures known past (next o).run Q) :
    G.Secures known past (task.outcome >>= next).run Q := by
  have flat : (task.outcome >>= next).run = task.run.bind fun o => (next o).run :=
    Routine.bind_assoc ..
  exact flat ▸ Secures.bind h

section
variable {task : Act W α} {Q : Option S → List (Sight S E) → Except Error α → Prop}

theorem secures_holding
    (h : ∀ s, G.Secures (some s) (past ++ [.entered s]) task.run fun known past o =>
      ∃ t, known = some t ∧ Q none (past ++ [.left t]) o) :
    G.Secures none past (Act.holding G.gate task).run Q := by
  show G.Secures none past (.enter G.gate (task.run.bind fun o => .leave G.gate (.done o))) Q
  rw [Secures, if_pos rfl]
  refine ⟨rfl, fun s => Secures.bind ((h s).mono ?_)⟩
  rintro _ past o ⟨t, rfl, hq⟩
  rw [Secures, if_pos rfl]
  exact ⟨t, rfl, hq⟩

/-- Another gate is of no concern. -/
theorem secures_holding_ne {gate : Gate} (hg : gate ≠ G.gate)
    (h : G.Secures known past task.run Q) :
    G.Secures known past (Act.holding gate task).run Q := by
  show G.Secures known past (.enter gate (task.run.bind fun o => .leave gate (.done o))) Q
  rw [Secures, if_neg hg]
  refine Secures.bind (h.mono fun known past o hq => ?_)
  rw [Secures, if_neg hg]
  exact hq

end

/-- Whatever was seen of it before, a task that does not hold the gate keeps to the law, and does
not hold the gate when it ends. -/
def Keeps (G : Guard W S E) (r : Routine W α) : Prop := ∀ past, G.Secures none past r Free

theorem composes (G : Guard W S E) : Routine.Composes fun _ r => G.Keeps r where
  done _ _ := rfl
  bind hr gives hf past := by
    refine Secures.bind ((hr past).mono_of_gives gives ?_)
    rintro _ past a ha rfl
    exact hf a ha past

end Guard

namespace Crowd
variable {W S E α β : Type} {G : Guard W S E}

/-- What is behind the gate, for the task that holds it. -/
def known (c : Crowd W α) (G : Guard W S E) (i : Nat) : Option S :=
  if c.holder G.gate = some i then some (G.view c.world) else none

def sights (G : Guard W S E) (i : Nat) (c d : Crowd W α) : List (Sight S E) :=
  if c.holder G.gate ≠ some i ∧ d.holder G.gate = some i then [.entered (G.view c.world)]
  else if c.holder G.gate = some i ∧ d.holder G.gate ≠ some i then [.left (G.view c.world)]
  else (G.shown c.world d.world).map .seen

theorem known_eq_some {c : Crowd W α} {i : Nat} {s : S} (h : c.known G i = some s) :
    c.holder G.gate = some i ∧ G.view c.world = s := by
  unfold known at h
  split_ifs at h with hi
  exact ⟨hi, Option.some.inj h⟩

/-- What is seen to be left behind the gate is what was there at the time. -/
theorem left_of_observed {c : Crowd W α} {i : Nat} {s : S} {schedule : List Nat}
    (h : .left s ∈ c.observed (sights G i) i schedule) :
    ∃ first rest, schedule = first ++ i :: rest ∧ G.view (c.follow first).world = s := by
  induction schedule generalizing c with
  | nil => contradiction
  | cons j rest ih =>
    rcases List.mem_append.mp h with h | h
    · split_ifs at h with hj
      · refine ⟨[], rest, by rw [hj]; rfl, ?_⟩
        unfold sights at h
        split_ifs at h <;> simp at h
        exact h.symm
      · contradiction
    · obtain ⟨first, rest, rfl, view⟩ := ih h
      exact ⟨j :: first, rest, rfl, view⟩

theorem known_congr {c d : Crowd W α} {i : Nat}
    (holder : d.holder G.gate = some i ↔ c.holder G.gate = some i)
    (view : c.holder G.gate = some i → G.view d.world = G.view c.world) :
    d.known G i = c.known G i := by
  unfold known
  by_cases hi : c.holder G.gate = some i
  · rw [if_pos hi, if_pos (holder.mpr hi), view hi]
  · rw [if_neg hi, if_neg fun h => hi (holder.mp h)]

/-- What one move of task `i` brings about, while it does a part of its work. -/
structure Advances (G : Guard W S E) (i : Nat) (next : β → Routine W α) (c d : Crowd W α)
    (past : List (Sight S E)) (Q : Option S → List (Sight S E) → β → Prop) : Prop where
  base : G.base d.world
  law : G.law (c.known G i) past c.world d.world
  view : c.known G i = none → G.view d.world = G.view c.world
  holder : ∀ j ≠ i, d.holder G.gate = some j ↔ c.holder G.gate = some j
  rest : ∃ r, d.tasks[i]? = some (Routine.bind r next) ∧
    G.Secures (d.known G i) (past ++ c.sights G i d) r Q

section
variable {c d : Crowd W α} {i : Nat} {next : β → Routine W α} {r : Routine W β}
  {past : List (Sight S E)} {Q : Option S → List (Sight S E) → β → Prop}

/-- A move that leaves the gate alone. -/
theorem Advances.of_holder_eq (holder : d.holder G.gate = c.holder G.gate) (base : G.base d.world)
    (law : G.law (c.known G i) past c.world d.world)
    (view : c.known G i = none → G.view d.world = G.view c.world)
    (ht : d.tasks[i]? = some (r.bind next))
    (h : G.Secures ((c.known G i).map fun _ => G.view d.world)
      (past ++ (G.shown c.world d.world).map .seen) r Q) : Advances G i next c d past Q := by
  have seen : c.sights G i d = (G.shown c.world d.world).map .seen := by simp [sights, holder]
  have known : d.known G i = (c.known G i).map fun _ => G.view d.world := by
    simp only [known, holder]
    split_ifs <;> rfl
  refine ⟨base, law, view, fun j _ => by rw [holder], r, ht, ?_⟩
  rw [known, seen]
  exact h

/-- A move that only waits, or is at another gate. -/
theorem Advances.of_world_eq (world : d.world = c.world)
    (holder : d.holder G.gate = c.holder G.gate) (base : G.base c.world)
    (ht : d.tasks[i]? = some (r.bind next)) (h : G.Secures (c.known G i) past r Q) :
    Advances G i next c d past Q := by
  have same : ((c.known G i).map fun _ => G.view d.world) = c.known G i := by
    rw [world]
    exact known_of_view fun s hs => (known_eq_some hs).2
  refine .of_holder_eq holder (world ▸ base) (world ▸ G.law_self _ _ _) (fun _ => by rw [world])
    ht ?_
  rw [same, world, G.shown_self, List.map_nil, List.append_nil]
  exact h

theorem advances_enter {gate : Gate} (ht : c.tasks[i]? = some ((Routine.enter gate r).bind next))
    (base : G.base c.world) (h : G.Secures (c.known G i) past (.enter gate r) Q) :
    Advances G i next c (c.move i) past Q := by
  have hm : c.move i = c.approach i gate (r.bind next) := by
    rw [move, ht]
    rfl
  have waits {d : Crowd W α} (tasks : d.tasks = c.tasks) (world : d.world = c.world)
      (holder : d.holder = c.holder) : Advances G i next c d past Q :=
    .of_world_eq world (by rw [holder]) base (tasks ▸ ht) h
  rw [hm]
  unfold approach
  split_ifs with inline passes
  · have ht' := proceed_task ht (r.bind next)
    simp only [Guard.Secures] at h
    split_ifs at h with hg
    · subst hg
      obtain ⟨-, h⟩ := h
      refine ⟨base, G.law_self _ _ _, fun _ => rfl, fun j hj => ?_, r, ht', ?_⟩
      · simp [passes.1, Ne.symm hj]
      · simpa [known, sights, proceed, passes.1] using h (G.view c.world)
    · exact .of_world_eq rfl (Function.update_of_ne (Ne.symm hg) _ _) base ht' h
  · exact waits rfl rfl rfl
  · exact waits rfl rfl rfl

theorem advances_leave {gate : Gate} (ht : c.tasks[i]? = some ((Routine.leave gate r).bind next))
    (base : G.base c.world) (h : G.Secures (c.known G i) past (.leave gate r) Q) :
    Advances G i next c (c.move i) past Q := by
  have hm : c.move i = { c.proceed i (r.bind next) with
      holder := Function.update c.holder gate none } := by
    rw [move, ht]
    rfl
  have ht' := proceed_task ht (r.bind next)
  rw [hm]
  simp only [Guard.Secures] at h
  split_ifs at h with hg
  · subst hg
    obtain ⟨s, hs, h⟩ := h
    obtain ⟨held, rfl⟩ := known_eq_some hs
    refine ⟨base, G.law_self _ _ _, fun _ => rfl, fun j hj => ?_, r, ht', ?_⟩
    · simp [held, Ne.symm hj]
    · simpa [known, sights, held] using h
  · exact .of_world_eq rfl (Function.update_of_ne (Ne.symm hg) _ _) base ht' h

/-- One move of a task that keeps to the law. -/
theorem advances (ht : c.tasks[i]? = some (r.bind next)) (base : G.base c.world)
    (h : G.Secures (c.known G i) past r Q) (going : ∀ b, r ≠ .done b) :
    Advances G i next c (c.move i) past Q := by
  cases r with
  | done b => exact absurd rfl (going b)
  | step change nx =>
    have hm : c.move i = { c.proceed i ((nx (change c.world).1).bind next) with
        world := (change c.world).2 } := by
      rw [move, ht]
      rfl
    obtain ⟨base', law, view, rest⟩ := h c.world base fun s hs => (known_eq_some hs).2
    rw [hm]
    exact .of_holder_eq rfl base' law view (proceed_task ht _) rest
  | enter gate nx => exact advances_enter ht base h
  | leave gate nx => exact advances_leave ht base h

end

/-- All tasks keep to the law, knowing what they know now, after what was seen of them so far. -/
structure Guarded (G : Guard W S E) (past : Nat → List (Sight S E)) (c : Crowd W α) : Prop where
  base : G.base c.world
  tasks : ∀ i t, c.tasks[i]? = some t → G.Secures (c.known G i) (past i) t Guard.Free

theorem start_guarded {w : W} {tasks : List (Act W α)} (base : G.base w)
    (keeps : ∀ t ∈ tasks, G.Keeps t.run) : (start w tasks).Guarded G fun _ => [] := by
  refine ⟨base, fun i t ht => ?_⟩
  obtain ⟨task, hm, rfl⟩ := List.mem_map.mp (List.mem_of_getElem? ht)
  exact keeps task hm []

variable {c : Crowd W α} {past : Nat → List (Sight S E)}

/-- Whichever task moves, the law is kept, and the others know as much as before. -/
theorem Guarded.move (h : c.Guarded G past) (i : Nat) :
    ((c.move i).Guarded G fun j => past j ++ if i = j then c.sights G j (c.move i) else []) ∧
      G.law (c.known G i) (past i) c.world (c.move i).world ∧
      ∀ j ≠ i, (c.move i).known G j = c.known G j := by
  have seen : (fun j => past j ++ if i = j then c.sights G j c else []) = past := by
    funext j
    simp [sights, G.shown_self]
  have stays (hm : c.move i = c) :
      ((c.move i).Guarded G fun j => past j ++ if i = j then c.sights G j (c.move i) else []) ∧
        G.law (c.known G i) (past i) c.world (c.move i).world ∧
        ∀ j ≠ i, (c.move i).known G j = c.known G j := by
    rw [hm, seen]
    exact ⟨h, G.law_self _ _ _, fun _ _ => rfl⟩
  cases ht : c.tasks[i]? with
  | none => exact stays (by rw [Crowd.move, ht])
  | some t =>
    by_cases hd : ∃ a, t = .done a
    · obtain ⟨a, rfl⟩ := hd
      exact stays (by rw [Crowd.move, ht])
    · have whole : c.tasks[i]? = some (t.bind .done) := by rw [ht, Routine.bind_done]
      obtain ⟨base, law, view, holder, r, hr, rest⟩ :=
        advances whole h.base (h.tasks i t ht) fun a ha => hd ⟨a, ha⟩
      have others (j : Nat) (hj : j ≠ i) : (c.move i).known G j = c.known G j := by
        refine known_congr (holder j hj) fun held => view ?_
        rw [known, if_neg fun hi => hj (Option.some.inj (held.symm.trans hi))]
      refine ⟨⟨base, fun j u hu => ?_⟩, law, others⟩
      by_cases hj : j = i
      · subst hj
        rw [hr, Routine.bind_done] at hu
        simp only [if_true]
        exact Option.some.inj hu ▸ rest
      · rw [c.move_task_ne (Ne.symm hj)] at hu
        rw [if_neg (Ne.symm hj), List.append_nil, others j hj]
        exact h.tasks j u hu

theorem Guarded.follow (h : c.Guarded G past) (schedule : List Nat) :
    (c.follow schedule).Guarded G fun j => past j ++ c.observed (sights G j) j schedule := by
  induction schedule generalizing c past with
  | nil =>
    simp only [observed, List.append_nil]
    exact h
  | cons i rest ih =>
    have later := ih (h.move i).1
    simp only [List.append_assoc] at later
    exact later

/-- Task `i` does a part of its work, after `past` was seen of it, and then goes on with `next`.
When the part is done `Q` holds of what was seen of it and of its result; until then what is left
will make it so. -/
def Serves (G : Guard W S E) (i : Nat) (next : β → Routine W α) (c : Crowd W α)
    (past : List (Sight S E)) (Q : Option S → List (Sight S E) → β → Prop)
    (schedule : List Nat) : Prop :=
  let seen schedule := past ++ c.observed (sights G i) i schedule
  (∃ left, (c.follow schedule).tasks[i]? = some (Routine.bind left next) ∧
    G.Secures ((c.follow schedule).known G i) (seen schedule) left Q) ∨
  ∃ before after b, schedule = before ++ after ∧ (c.follow before).tasks[i]? = some (next b) ∧
    Q ((c.follow before).known G i) (seen before) b

section
variable {i : Nat} {next : β → Routine W α} {Q : Option S → List (Sight S E) → β → Prop}

theorem Serves.cons {past : List (Sight S E)} {j : Nat} {rest : List Nat}
    (h : (c.move j).Serves G i next
      (past ++ if j = i then c.sights G i (c.move j) else []) Q rest) :
    c.Serves G i next past Q (j :: rest) := by
  rcases h with ⟨left, ht, hl⟩ | ⟨before, after, b, rfl, ht, hq⟩
  · simp only [List.append_assoc] at hl
    exact .inl ⟨left, ht, hl⟩
  · simp only [List.append_assoc] at hq
    exact .inr ⟨j :: before, after, b, rfl, ht, hq⟩

/-- However the tasks take turns, a part of the work of one of them comes to what it secures. -/
theorem serves (guarded : c.Guarded G past) {seen : List (Sight S E)} {r : Routine W β}
    (ht : c.tasks[i]? = some (r.bind next)) (h : G.Secures (c.known G i) seen r Q)
    (schedule : List Nat) : c.Serves G i next seen Q schedule := by
  induction schedule generalizing c past r seen with
  | nil =>
    rw [← List.append_nil seen] at h
    exact .inl ⟨r, ht, h⟩
  | cons j rest ih =>
    obtain ⟨after, -, others⟩ := guarded.move j
    by_cases hj : j = i
    · subst hj
      by_cases hd : ∃ b, r = .done b
      · obtain ⟨b, rfl⟩ := hd
        rw [← List.append_nil seen] at h
        exact .inr ⟨[], j :: rest, b, rfl, ht, h⟩
      · obtain ⟨left, ht', hl⟩ := (advances ht guarded.base h fun b hb => hd ⟨b, hb⟩).rest
        apply Serves.cons
        rw [if_pos rfl]
        exact ih after ht' hl
    · apply Serves.cons
      rw [if_neg hj, List.append_nil]
      exact ih after ((c.move_task_ne hj).trans ht) (others i (Ne.symm hj) ▸ h)

end

end Crowd
end DataAccess
