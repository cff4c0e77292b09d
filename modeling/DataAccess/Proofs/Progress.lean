import DataAccess.Link.Scripted
import DataAccess.Proofs.Errand

/-!
Users who work with sessions, queries, look-ups of column types and caches, any number of them at
the same time, never come to a halt waiting for each other. Gates are entered from the caches to
the catalogues, and from there to the connections.
-/
namespace DataAccess
variable {σ : Type} [Link σ] {commits : Prop}

/-- Tasks made of errands and of what is done with caches, one after the other, with any control
flow between them. A record that is not in a cache is resolved by an errand. -/
inductive Job {σ : Type} [Link σ] (commits : Prop) : {α : Type} → Act (World σ) α → Prop
  | errand {α : Type} {task : Act (World σ) α} : Errand commits task → Job commits task
  | bind {α β : Type} {task : Act (World σ) α} {next : α → Act (World σ) β} :
    Job commits task → (∀ a, Job commits (next a)) → Job commits (task >>= next)
  | outcome {α : Type} {task : Act (World σ) α} : Job commits task → Job commits task.outcome
  | retained {α : Type} (n : Nat) {task : Act (World σ) α} :
    Job commits task → Job commits (Session.retained n task)
  | transaction {α : Type} (n : Nat) {task : Act (World σ) α} :
    Job commits task → Job commits (Session.transaction n task)
  | get (n : Nat) (entity : String) (ids : Json) : Job commits (Cache.get n entity ids)
  | getOrResolve (n : Nat) (entity : String) (ids : Json)
    {resolver : Act (World σ) (Option Record)} :
    Errand commits resolver → Job commits (Cache.getOrResolve n entity ids resolver)
  | store (n : Nat) (entity : String) (values : Json) : Job commits (Cache.setIn n entity values)
  | update (n : Nat) (entity : String) (ids values : Json) :
    Job commits (Cache.updateIn n entity ids values)
  | patch (n : Nat) (entity : String) (ids delta : Json) :
    Job commits (Cache.patchIn n entity ids delta)
  | invalidate (n : Nat) (entity : String) (ids : Json) :
    Job commits (Cache.invalidateIn n entity ids)
  | lengthOf (n : Nat) (entity : String) : Job commits (Cache.lengthOf n entity)

section
omit [Link σ]

/-- Whoever has a cache for himself may go on errands. -/
theorem orderly_exclusive {α : Type} (n : Nat) (entity : String) {task : Act (World σ) α}
    (h : task.run.Orderly 1) : (Cache.exclusive n entity task).run.Orderly 0 :=
  Routine.Orderly.holding (.cache n entity) h

theorem orderly_getOrResolve (n : Nat) (entity : String) (ids : Json)
    {resolver : Act (World σ) (Option Record)} (h : resolver.run.Orderly 1) :
    (Cache.getOrResolve n entity ids resolver).run.Orderly 0 := by
  have outer := Routine.Orderly.composes (W := World σ) 0
  have inner := Routine.Orderly.composes (W := World σ) 1
  refine outer.act_bind (outer.ofExcept _) fun ids => orderly_exclusive n entity ?_
  refine inner.act_bind (Routine.orderly_step 1 _) fun found => ?_
  split
  · exact inner.done _
  · refine inner.act_bind h fun resolved => ?_
    exact inner.act_bind (Routine.orderly_step 1 _) fun _ => inner.done _

end

/-- Jobs keep to the order of the gates. -/
theorem Job.orderly {α : Type} {task : Act (World σ) α} (h : Job commits task) :
    task.run.Orderly 0 := by
  have parts : Session.Statements (σ := σ) (CallersCommit commits) fun _ r => r.Orderly 0 :=
    orderly_statements (by decide)
  have change {β : Type} (n : Nat) (entity : String) (f : Cache → Except Error (β × Cache)) :
      (Cache.exclusive n entity (Cache.change (σ := σ) n entity f)).run.Orderly 0 :=
    orderly_exclusive n entity (Routine.orderly_step 1 _)
  induction h with
  | errand h => exact (h.composed orderly_errands).mono (Nat.zero_le 1)
  | bind _ _ iht ihn => exact parts.act_bind iht ihn
  | outcome _ ih => exact parts.outcome ih
  | retained n _ ih => exact parts.retained n ih
  | transaction n _ ih => exact parts.transaction n ih
  | get n entity ids =>
    refine parts.act_bind (parts.ofExcept _) fun ids => ?_
    exact orderly_exclusive n entity (Routine.orderly_step 1 _)
  | getOrResolve n entity ids h =>
    exact orderly_getOrResolve n entity ids (h.composed orderly_errands)
  | store n entity values => exact change n entity _
  | update n entity ids values => exact change n entity _
  | patch n entity ids delta => exact change n entity _
  | invalidate n entity ids => exact change n entity _
  | lengthOf n entity =>
    refine parts.act_bind ?_ fun _ => parts.done _
    exact orderly_exclusive n entity (Routine.orderly_step 1 _)

/-- However users take turns, and whatever the link refuses: as long as a task has not ended, some
task has a move to make, and no tasks wait for gates that they hold themselves. So all tasks end,
if from then on each gets its turn again and again. -/
theorem jobs_never_stuck {α : Type} {w : World σ} {tasks : List (Act (World σ) α)}
    (jobs : ∀ t ∈ tasks, Job commits t) (schedule : List Nat) :
    let now := (Crowd.start w tasks).follow schedule
    (¬ now.Ended → ∃ i, now.move i ≠ now) ∧
      (∀ group : Set Nat, group.Nonempty → ∃ i ∈ group, ∀ j ∈ group, ¬ now.WaitsFor i j) ∧
      ∀ turns, now.Fair turns → ∃ n, (now.turned turns n).Ended := by
  intro now
  have ordered : now.Ordered := by
    apply Crowd.Ordered.follow
    apply Crowd.start_ordered
    exact fun t ht => (jobs t ht).orderly
  refine ⟨ordered.exists_move, ?_, ?_⟩
  · intro group some
    exact ordered.exists_not_waitsFor some
  · intro turns fair
    exact ordered.ends fair

/-- Of three users one looks something up in a cache, which is resolved by a query whose table is
looked up first. The second one wants the same cache and has to wait, in the middle of a
transaction. -/
theorem jobs_never_stuck_three_users :
    let w : World Script := { wire := { link := { failures := [{ fragment := "users" }] } } }
    let tasks : List (Act (World Script) (Option Record)) :=
      [Cache.getOrResolve 1 "user" (.object []) ((Draft.start "users").execute 1 >>= fun _ =>
          .ofExcept (.ok none)),
        Session.transaction 1 (Cache.getOrResolve 1 "user" (.object [])
          (Schema.ensure 2 ["users"] >>= fun _ => .ofExcept (.ok none))),
        Schema.forget 2 "users" >>= fun _ => Cache.get 1 "user" .null]
    let now := (Crowd.start w tasks).follow ([0, 0, 0] ++ List.replicate 5 1)
    (∀ t ∈ tasks, Job False t) ∧ now.WaitsFor 1 0 ∧ ¬ now.Ended ∧ (∃ i, now.move i ≠ now) ∧
      ∃ n, (now.turned (· % 3) n).Ended := by
  intro w tasks now
  have jobs : ∀ t ∈ tasks, Job False t := by
    simp only [tasks, List.forall_mem_cons]
    refine ⟨?_, ?_, ?_, by simp⟩
    · exact .getOrResolve 1 "user" _ (.bind (.execute 1 _) fun _ => .plan (.ofExcept _))
    · refine .transaction 1 (.getOrResolve 1 "user" _ ?_)
      exact .bind (.ensure 2 _) fun _ => .plan (.ofExcept _)
    · exact .bind (.errand (.forget 2 _)) fun _ => .get 1 "user" _
  have free : (¬ now.Ended → ∃ i, now.move i ≠ now) ∧ _ ∧
      ∀ turns, now.Fair turns → ∃ n, (now.turned turns n).Ended :=
    jobs_never_stuck jobs ([0, 0, 0] ++ List.replicate 5 1)
  have waits : now.WaitsFor 1 0 := ⟨.cache 1 "user", by decide +kernel, by decide +kernel⟩
  have three : now.tasks.length = 3 := Crowd.length_follow _ _
  clear_value now
  obtain ⟨moves, -, ends⟩ := free
  have going : ¬ now.Ended := by
    obtain ⟨gate, next, ht, -⟩ := waits.entering
    intro ended
    obtain ⟨a, ha⟩ := ended _ (List.mem_of_getElem? ht)
    contradiction
  have fair : now.Fair (· % 3) := by
    intro i hi n
    rw [three] at hi
    refine ⟨3 * n + i, by omega, ?_⟩
    show (3 * n + i) % 3 = i
    omega
  exact ⟨jobs, waits, going, moves going, ends _ fair⟩

end DataAccess
