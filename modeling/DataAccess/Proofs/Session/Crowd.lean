import DataAccess.Session.Routine
import Mathlib.Data.List.Induction
import Mathlib.Logic.Function.Basic
import Mathlib.Tactic.SplitIfs

/-!
Several tasks in one world, in any order of their moves. A gate has one holder at a time, and
tasks that find it taken stand in line for it in the order in which they came.
-/
namespace DataAccess

namespace Routine
variable {W α β γ : Type}

protected theorem bind_assoc (r : Routine W α) (f : α → Routine W β) (g : β → Routine W γ) :
    (r.bind f).bind g = r.bind fun a => (f a).bind g := by
  induction r with
  | done a => rfl
  | step change next ih => simp only [Routine.bind, ih]
  | enter gate next ih => simp only [Routine.bind, ih]
  | leave gate next ih => simp only [Routine.bind, ih]

protected theorem bind_done (r : Routine W α) : r.bind .done = r := by
  induction r with
  | done a => rfl
  | step change next ih => simp only [Routine.bind, ih]
  | enter gate next ih => simp only [Routine.bind, ih]
  | leave gate next ih => simp only [Routine.bind, ih]

/-- Every change of the world that the task may make has the property. -/
def Only (P : (W → W) → Prop) : Routine W α → Prop
  | done _ => True
  | step change next => P (fun w => (change w).2) ∧ ∀ b, (next b).Only P
  | enter _ next => next.Only P
  | leave _ next => next.Only P

def Gives (Q : α → Prop) : Routine W α → Prop
  | done a => Q a
  | step _ next => ∀ b, (next b).Gives Q
  | enter _ next => next.Gives Q
  | leave _ next => next.Gives Q

theorem gives_of_forall {Q : α → Prop} (h : ∀ a, Q a) (r : Routine W α) : r.Gives Q := by
  induction r with
  | done a => exact h a
  | step change next ih => exact ih
  | enter gate next ih => exact ih
  | leave gate next ih => exact ih

theorem gives_trivial (r : Routine W α) : r.Gives fun _ => True :=
  gives_of_forall (fun _ => trivial) r

theorem Gives.bind {Q : β → Prop} {R : α → Prop} {r : Routine W α} {f : α → Routine W β}
    (hr : r.Gives R) (hf : ∀ a, R a → (f a).Gives Q) : (r.bind f).Gives Q := by
  induction r with
  | done a => exact hf a hr
  | step change next ih => exact fun b => ih b (hr b)
  | enter gate next ih => exact ih hr
  | leave gate next ih => exact ih hr

/-- What comes after a task may rely on what the task gives. -/
theorem Only.bind_of_gives {P : (W → W) → Prop} {Q : α → Prop} {r : Routine W α}
    {f : α → Routine W β} (hr : r.Only P) (hq : r.Gives Q) (hf : ∀ a, Q a → (f a).Only P) :
    (r.bind f).Only P := by
  induction r with
  | done a => exact hf a hq
  | step change next ih => exact ⟨hr.1, fun b => ih b (hr.2 b) (hq b)⟩
  | enter gate next ih => exact ih hr hq
  | leave gate next ih => exact ih hr hq

theorem Only.bind {P : (W → W) → Prop} {r : Routine W α} {f : α → Routine W β} (hr : r.Only P)
    (hf : ∀ a, (f a).Only P) : (r.bind f).Only P :=
  hr.bind_of_gives r.gives_trivial fun a _ => hf a

/-- A property of tasks that a whole has if its parts have it. A later part may rely on what an
earlier one gives. -/
structure Composes (C : (α : Type) → Routine W α → Prop) : Prop where
  done {α : Type} (a : α) : C α (.done a)
  bind {α β : Type} {Q : α → Prop} {r : Routine W α} {f : α → Routine W β} :
    C α r → r.Gives Q → (∀ a, Q a → C β (f a)) → C β (r.bind f)

theorem Only.composes (P : (W → W) → Prop) : Composes fun _ (r : Routine W _) => r.Only P :=
  ⟨fun _ => trivial, Only.bind_of_gives⟩

theorem Only.mono {P Q : (W → W) → Prop} (h : ∀ f, P f → Q f) {r : Routine W α} (hr : r.Only P) :
    r.Only Q := by
  induction r with
  | done a => trivial
  | step change next ih => exact ⟨h _ hr.1, fun b => ih b (hr.2 b)⟩
  | enter gate next ih => exact ih hr
  | leave gate next ih => exact ih hr

theorem Only.holding {P : (W → W) → Prop} {r : Routine W α} (hr : r.Only P) (gate : Gate) :
    (holding gate r).Only P :=
  Only.bind (P := P) hr fun _ => trivial

/-- However the world changes between the steps of the task, its own changes show just this. -/
def Emits {E : Type} (emit : W → W → List E) : Routine W α → List E → Prop
  | done _, es => es = []
  | step change next, es => ∃ now later, es = now ++ later ∧
    ∀ w, emit w (change w).2 = now ∧ (next (change w).1).Emits emit later
  | enter _ next, es => next.Emits emit es
  | leave _ next, es => next.Emits emit es

section
variable {E : Type} {emit : W → W → List E}

theorem Emits.bind {r : Routine W α} {f : α → Routine W β} {es fs : List E} (hr : r.Emits emit es)
    (hf : ∀ a, (f a).Emits emit fs) : (r.bind f).Emits emit (es ++ fs) := by
  induction r generalizing es with
  | done a => exact (show es = [] from hr) ▸ hf a
  | step change next ih =>
    obtain ⟨now, later, rfl, h⟩ := hr
    exact ⟨now, later ++ fs, List.append_assoc .., fun w => ⟨(h w).1, ih _ (h w).2⟩⟩
  | enter gate next ih => exact ih hr
  | leave gate next ih => exact ih hr

theorem Only.emits {r : Routine W α} (h : r.Only fun f => ∀ w, emit w (f w) = []) :
    r.Emits emit [] := by
  induction r with
  | done a => rfl
  | step change next ih => exact ⟨[], [], rfl, fun w => ⟨h.1 w, ih _ (h.2 _)⟩⟩
  | enter gate next ih => exact ih h
  | leave gate next ih => exact ih h

end

end Routine

/-- Tasks at work in one world; a task is known by its place in the list. -/
structure Crowd (W α : Type) where
  world : W
  tasks : List (Routine W α)
  holder : Gate → Option Nat := fun _ => none
  line : Gate → List Nat := fun _ => []

namespace Crowd
variable {W α : Type}

def start (w : W) (tasks : List (Act W α)) : Crowd W (Except Error α) :=
  { world := w, tasks := tasks.map ExceptT.run }

def proceed (c : Crowd W α) (i : Nat) (rest : Routine W α) : Crowd W α :=
  { c with tasks := c.tasks.set i rest }

/-- Task `i` at a gate: it joins the line, or enters if the gate is free and it is the first. -/
def approach (c : Crowd W α) (i : Nat) (gate : Gate) (next : Routine W α) : Crowd W α :=
  if i ∈ c.line gate then
    if c.holder gate = none ∧ (c.line gate).head? = some i then
      { c.proceed i next with
        holder := Function.update c.holder gate (some i)
        line := Function.update c.line gate (c.line gate).tail }
    else c
  else { c with line := Function.update c.line gate (c.line gate ++ [i]) }

/-- The next move of task `i`. Nothing happens if it has ended or has to wait. -/
def move (c : Crowd W α) (i : Nat) : Crowd W α :=
  match c.tasks[i]? with
  | none => c
  | some (.done _) => c
  | some (.step change next) =>
    let (b, world) := change c.world
    { c.proceed i (next b) with world }
  | some (.enter gate next) => c.approach i gate next
  | some (.leave gate next) =>
    { c.proceed i next with holder := Function.update c.holder gate none }

def follow (c : Crowd W α) (schedule : List Nat) : Crowd W α := schedule.foldl move c

/-- Of the world and the tasks, a move changes what one step of one task changes. -/
theorem move_only {P : (W → W) → Prop} {c : Crowd W α} (h : ∀ t ∈ c.tasks, t.Only P) (i : Nat) :
    ((c.move i).world = c.world ∨ ∃ f, P f ∧ (c.move i).world = f c.world) ∧
      ∀ t ∈ (c.move i).tasks, t.Only P := by
  have placed (rest : Routine W α) (hr : rest.Only P) : ∀ t ∈ c.tasks.set i rest, t.Only P := by
    intro t ht
    rcases List.mem_or_eq_of_mem_set ht with hm | rfl
    · exact h t hm
    · exact hr
  cases hi : c.tasks[i]? with
  | none => simpa only [move, hi, true_or, true_and] using h
  | some t =>
    have ht := h t (List.mem_of_getElem? hi)
    cases t with
    | done a => simpa only [move, hi, true_or, true_and] using h
    | step change next =>
      simp only [move, hi]
      exact ⟨.inr ⟨_, ht.1, rfl⟩, placed _ (ht.2 _)⟩
    | enter gate next =>
      simp only [move, hi, approach]
      split_ifs
      · exact ⟨.inl rfl, placed _ ht⟩
      · exact ⟨.inl rfl, h⟩
      · exact ⟨.inl rfl, h⟩
    | leave gate next =>
      simp only [move, hi]
      exact ⟨.inl rfl, placed _ ht⟩

/-- What every admitted change keeps holds throughout, in whatever order the tasks move. -/
theorem follow_invariant {P : (W → W) → Prop} {Inv : W → Prop}
    (keeps : ∀ f, P f → ∀ w, Inv w → Inv (f w)) {c : Crowd W α} (tasks : ∀ t ∈ c.tasks, t.Only P)
    (start : Inv c.world) (schedule : List Nat) : Inv (c.follow schedule).world := by
  induction schedule generalizing c with
  | nil => exact start
  | cons i rest ih =>
    obtain ⟨hw, ht⟩ := move_only tasks i
    apply ih ht
    rcases hw with hw | ⟨f, hf, hw⟩
    · exact hw ▸ start
    · exact hw ▸ keeps f hf _ start

theorem follow_concat (c : Crowd W α) (schedule : List Nat) (i : Nat) :
    c.follow (schedule ++ [i]) = (c.follow schedule).move i := by
  simp only [follow, List.foldl_append, List.foldl_cons, List.foldl_nil]

theorem follow_append (c : Crowd W α) (first rest : List Nat) :
    c.follow (first ++ rest) = (c.follow first).follow rest :=
  List.foldl_append ..

/-- What has come to hold has held ever since one of the moves. -/
theorem holds_since {P : Crowd W α → Prop} {c : Crowd W α} (start : ¬ P c) {schedule : List Nat}
    (now : P (c.follow schedule)) :
    ∃ first i rest, schedule = first ++ i :: rest ∧ ¬ P (c.follow first) ∧
      ∀ more, more <+: rest → P (c.follow (first ++ i :: more)) := by
  induction schedule using List.reverseRecOn with
  | nil => exact absurd now start
  | append_singleton schedule j ih =>
    by_cases h : P (c.follow schedule)
    · obtain ⟨first, i, rest, rfl, before, since⟩ := ih h
      refine ⟨first, i, rest ++ [j], by simp, before, fun more hm => ?_⟩
      rcases List.prefix_concat_iff.mp hm with rfl | hm
      · simpa using now
      · exact since more hm
    · refine ⟨schedule, j, [], rfl, h, fun more hm => ?_⟩
      rwa [List.prefix_nil.mp hm]

/-- What looks at the tasks before and after each move of task `i` show. -/
def observed {E : Type} (look : Crowd W α → Crowd W α → List E) (i : Nat) (c : Crowd W α) :
    List Nat → List E
  | [] => []
  | j :: rest => (if j = i then look c (c.move j) else []) ++ (c.move j).observed look i rest

/-- Others' moves leave a task where it is. -/
theorem move_task_ne (c : Crowd W α) {i j : Nat} (h : j ≠ i) :
    (c.move j).tasks[i]? = c.tasks[i]? := by
  have set (rest : Routine W α) : (c.proceed j rest).tasks[i]? = c.tasks[i]? :=
    List.getElem?_set_ne h
  unfold move
  split
  · rfl
  · rfl
  · exact set _
  · unfold approach
    split_ifs
    · exact set _
    · rfl
    · rfl
  · exact set _

theorem proceed_task {c : Crowd W α} {i : Nat} {t : Routine W α} (h : c.tasks[i]? = some t)
    (rest : Routine W α) : (c.proceed i rest).tasks[i]? = some rest :=
  List.getElem?_set_self (List.getElem?_eq_some_iff.mp h).1

/-- Task `i` does a part of its work and then goes on with `next`. What it shows meanwhile is `es`:
all of it when the part is done, and until then so much that what is left will show the rest. -/
def Shows {β E : Type} (emit : W → W → List E) (i : Nat) (next : β → Routine W α)
    (c : Crowd W α) (es : List E) (schedule : List Nat) : Prop :=
  let shown := c.observed (fun c d => emit c.world d.world) i
  (∃ left rest, (c.follow schedule).tasks[i]? = some (Routine.bind left next) ∧
    left.Emits emit rest ∧ shown schedule ++ rest = es) ∨
  ∃ before after b, schedule = before ++ after ∧ (c.follow before).tasks[i]? = some (next b) ∧
    shown before = es

section
variable {β E : Type} {emit : W → W → List E} {i : Nat} {next : β → Routine W α}

theorem Shows.cons {c : Crowd W α} {j : Nat} {later : List E} {rest : List Nat}
    (h : (c.move j).Shows emit i next later rest) :
    c.Shows emit i next ((if j = i then emit c.world (c.move j).world else []) ++ later)
      (j :: rest) := by
  rcases h with ⟨left, more, ht, hl, rfl⟩ | ⟨before, after, b, rfl, ht, rfl⟩
  · exact .inl ⟨left, more, ht, hl, List.append_assoc ..⟩
  · exact .inr ⟨j :: before, after, b, rfl, ht, rfl⟩

/-- However the tasks take turns, a task shows what the part of its work shows by itself. -/
theorem shows_of_emits (quiet : ∀ w, emit w w = []) {r : Routine W β} {es : List E}
    (hr : r.Emits emit es) {c : Crowd W α} (ht : c.tasks[i]? = some (r.bind next))
    (schedule : List Nat) : c.Shows emit i next es schedule := by
  induction schedule generalizing c r es with
  | nil => exact .inl ⟨r, es, ht, hr, rfl⟩
  | cons j rest ih =>
    by_cases hj : j = i
    · subst hj
      have silent (r' : Routine W β) (hr' : r'.Emits emit es) (hw : (c.move j).world = c.world)
          (ht' : (c.move j).tasks[j]? = some (r'.bind next)) :
          c.Shows emit j next es (j :: rest) := by
        simpa [hw, quiet] using (ih hr' ht').cons
      cases r with
      | done a => exact .inr ⟨[], j :: rest, a, rfl, ht, (show es = [] from hr).symm⟩
      | step change nx =>
        obtain ⟨now, later, rfl, h⟩ := hr
        have hm : c.move j = { c.proceed j ((nx (change c.world).1).bind next) with
            world := (change c.world).2 } := by
          rw [move, ht]
          rfl
        have shown := ih (h c.world).2 (c := c.move j) (by rw [hm]; exact proceed_task ht _)
        simpa [hm, (h c.world).1] using shown.cons
      | enter gate nx =>
        have hm : c.move j = c.approach j gate (nx.bind next) := by rw [move, ht]; rfl
        unfold approach at hm
        split_ifs at hm
        · exact silent nx hr (by rw [hm]; rfl) (by rw [hm]; exact proceed_task ht _)
        · exact silent (.enter gate nx) hr (by rw [hm]) (by rw [hm]; exact ht)
        · exact silent (.enter gate nx) hr (by rw [hm]) (by rw [hm]; exact ht)
      | leave gate nx =>
        have hm : c.move j = { c.proceed j (nx.bind next) with
            holder := Function.update c.holder gate none } := by rw [move, ht]; rfl
        exact silent nx hr (by rw [hm]; rfl) (by rw [hm]; exact proceed_task ht _)
    · simpa [hj] using (ih hr ((c.move_task_ne hj).trans ht)).cons

end

end Crowd
end DataAccess
