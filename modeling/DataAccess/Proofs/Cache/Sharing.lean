import DataAccess.Link.Scripted
import DataAccess.Proofs.Cache.Upkeep
import DataAccess.Proofs.Session.Serial

/-!
Users who look up the same record at the same time. While it is resolved for one of them the others
wait, and then find it; it is resolved again only if the resolver did not come up with it.
-/
namespace DataAccess

namespace Routine
variable {W : Type}

theorem Aloof.composes (gate : Gate) : Composes fun _ (r : Routine W _) => r.Aloof gate where
  done _ := rfl
  bind hr hq hf := hr.bind_of_gives hq hf

end Routine

namespace Cache
variable {σ α : Type} {n : Nat} {entity : String} {ids : Record} {w : World σ}
  {resolver : Act (World σ) (Option Record)}

/-- A task that leaves the cache as it is and does without its gate. -/
structure Aloof (n : Nat) (entity : String) (task : Act (World σ) α) : Prop where
  spares : ∀ w : World σ, (task.start w).2.cache n entity = w.cache n entity
  gates : task.run.Aloof (.cache n entity)

theorem Aloof.of_errand [Link σ] {commits : Prop} {task : Act (World σ) α}
    (h : Errand commits task) (n : Nat) (entity : String) : Aloof n entity task where
  spares w := by
    rw [World.cache, Session.cache, (h.start_sameStock w).caches n]
    rfl
  gates := (h.composed orderly_errands).aloof Nat.zero_lt_one

def looked (n : Nat) (entity : String) (ids : Record) (w : World σ) : World σ :=
  ((lookupStep n entity ids).start w).2

def kept : Except Error (Option Record) → List Record
  | .ok resolved => resolved.toList.filter fun r => !r.isEmpty
  | .error _ => []

def resolveOne (n : Nat) (entity : String) (ids : Record)
    (resolver : Act (World σ) (Option Record)) (w : World σ) :
    Except Error (Option Record) × World σ :=
  match resolver.start (looked n entity ids w) with
  | (.error e, v) => (.error e, v)
  | (.ok resolved, v) => (.ok resolved, v.putSession n ((v.session n).putCache entity
      ((v.cache n entity).add (kept (.ok resolved)))))

/-- Resolvers run one after the other, each once: their answers, and the world after them. -/
def resolveAll (n : Nat) (entity : String) (ids : Record) :
    List (Act (World σ) (Option Record)) → World σ → List (Except Error (Option Record)) × World σ
  | [], w => ([], w)
  | resolver :: rest, w =>
    let (answer, v) := resolveOne n entity ids resolver w
    let (answers, u) := resolveAll n entity ids rest v
    (answer :: answers, u)

/-- The resolver gave a record that can be kept and is what was looked for. -/
def Settles (ids r : Record) (answer : Except Error (Option Record)) : Prop :=
  answer = .ok (some r) ∧ r ≠ [] ∧ agrees ids r = true

def attempt (n : Nat) (entity : String) (ids : Record)
    (resolver : Act (World σ) (Option Record)) : Act (World σ) (Option Record) := do
  match ← lookupStep n entity ids with
  | some found => return some found
  | none =>
    let resolved ← resolver
    change n entity fun c => .ok ((), c.add (kept (.ok resolved)))
    return resolved

theorem getOrResolve_eq : getOrResolve n entity (.object ids) resolver =
    exclusive n entity (attempt n entity ids resolver) := rfl

theorem run_attempt (w : World σ) : (attempt n entity ids resolver).run.run w =
    (getOrResolve n entity (.object ids) resolver).start w := by
  rw [getOrResolve_eq, exclusive, Act.start_holding]
  rfl

theorem run_attempt_hit {r : Record} (found : (w.cache n entity).find? ids = some r) :
    (attempt n entity ids resolver).run.run w = (.ok (some r), looked n entity ids w) := by
  rw [run_attempt, start_getOrResolve_hit rfl found]
  rfl

theorem run_attempt_missing (missing : (w.cache n entity).find? ids = none) :
    (attempt n entity ids resolver).run.run w = resolveOne n entity ids resolver w := by
  rw [run_attempt, start_getOrResolve_missing rfl missing]
  rfl

theorem Aloof.attempt (h : Aloof n entity resolver) :
    (attempt n entity ids resolver).run.Aloof (.cache n entity) := by
  have parts := Routine.Aloof.composes (W := World σ) (.cache n entity)
  have step {γ : Type} (change : World σ → γ × World σ) :
      (Routine.step change .done).Aloof (.cache n entity) := fun _ => rfl
  refine parts.act_bind (step _) fun found => ?_
  split
  · exact parts.done _
  · refine parts.act_bind h.gates fun resolved => ?_
    exact parts.act_bind (step _) fun _ => parts.done _

theorem find?_looked (w : World σ) :
    ((looked n entity ids w).cache n entity).find? ids = (w.cache n entity).find? ids := by
  unfold find?
  rw [looked, entries_lookupStep]

/-- The cache after a look-up that finds nothing is as before. -/
theorem cache_looked (missing : (w.cache n entity).find? ids = none) :
    (looked n entity ids w).cache n entity = w.cache n entity := by
  rw [looked, start_lookupStep, lookup_eq, cache_putCache, if_pos rfl, missing]
  rfl

theorem cache_resolveOne (missing : (w.cache n entity).find? ids = none)
    (aloof : Aloof n entity resolver) :
    (resolveOne n entity ids resolver w).2.cache n entity =
      (w.cache n entity).add (kept (resolveOne n entity ids resolver w).1) := by
  have spared := aloof.spares (looked n entity ids w)
  rw [cache_looked missing] at spared
  unfold resolveOne
  rcases hr : resolver.start (looked n entity ids w) with ⟨e | resolved, v⟩ <;> rw [hr] at spared
  · show v.cache n entity = _
    rw [show v.cache n entity = w.cache n entity from spared]
    simp [add, kept]
  · show (v.putSession n _).cache n entity = _
    rw [cache_putSession, Session.cache_putCache]
    exact congrArg (fun c => add c _) spared

theorem kept_some (r : Record) : kept (.ok (some r)) = if r = [] then [] else [r] := by
  by_cases h : r = [] <;> simp [kept, h]

/-- The record is there from the first answer on that gives it. -/
theorem find?_resolveOne (missing : (w.cache n entity).find? ids = none)
    (aloof : Aloof n entity resolver) (r : Record) :
    ((resolveOne n entity ids resolver w).2.cache n entity).find? ids = some r ↔
      Settles ids r (resolveOne n entity ids resolver w).1 := by
  have none : (w.cache n entity).entries.find? (agrees ids) = none := missing
  rw [cache_resolveOne missing aloof, find?, add, List.find?_append, none, Option.none_or]
  generalize (resolveOne n entity ids resolver w).1 = answer
  rcases answer with e | _ | s
  · simp [kept, Settles]
  · simp [kept, Settles]
  · rw [kept_some]
    split_ifs with empty
    · subst empty
      constructor
      · intro h
        contradiction
      · rintro ⟨⟨⟩, nonempty, -⟩
        contradiction
    · by_cases h : agrees ids s = true
      · simp only [List.find?_cons_of_pos h, Settles]
        constructor
        · rintro ⟨⟩
          exact ⟨rfl, empty, h⟩
        · rintro ⟨⟨⟩, -, -⟩
          rfl
      · simp only [List.find?_cons_of_neg h, Settles]
        constructor
        · intro h
          contradiction
        · rintro ⟨⟨⟩, -, agreed⟩
          contradiction

/-- What has been found is found by all who come later. -/
theorem serveAll_found (resolver : Nat → Act (World σ) (Option Record)) {q : Queue (World σ)}
    {r : Record} (found : (q.state.cache n entity).find? ids = some r) (order : List Nat) :
    let later := Crowd.inTurn (fun i => (attempt n entity ids (resolver i)).run) q order
    later.1 = List.replicate order.length (.ok (some r)) ∧
      later.2.state = (looked n entity ids)^[order.length] q.state := by
  induction order generalizing q with
  | nil => exact ⟨rfl, rfl⟩
  | cons i rest ih =>
    have served : q.serve (attempt n entity ids (resolver i)).run.run =
        (.ok (some r), { q with
          state := looked n entity ids q.state, completed := q.completed + 1 }) := by
      rw [Queue.serve, run_attempt_hit found]
    obtain ⟨results, state⟩ := ih (q := { q with
      state := looked n entity ids q.state, completed := q.completed + 1 })
      (by rw [find?_looked, found])
    simp only [Crowd.inTurn, List.map_cons, Queue.serveAll, served]
    exact ⟨congrArg _ results, state⟩

/-- What comes of look-ups of a record that is not there, in the order of the calls: those in `ran`
run their resolvers, up to the first that gives the record, and those in `spared` find it. -/
structure Shared (n : Nat) (entity : String) (ids : Record)
    (resolver : Nat → Act (World σ) (Option Record)) (w : World σ) (ran spared : List Nat)
    (results : List (Except Error (Option Record))) (now : World σ) : Prop where
  unsettled : ∀ answer ∈ (resolveAll n entity ids (ran.map resolver) w).1.dropLast,
    ∀ r, ¬ Settles ids r answer
  settled : spared = [] ∧ results = (resolveAll n entity ids (ran.map resolver) w).1 ∨
    ∃ answer r, (resolveAll n entity ids (ran.map resolver) w).1.getLast? = some answer ∧
      Settles ids r answer ∧
      ((resolveAll n entity ids (ran.map resolver) w).2.cache n entity).find? ids = some r ∧
      results = (resolveAll n entity ids (ran.map resolver) w).1 ++
        List.replicate spared.length (.ok (some r))
  world : now = (looked n entity ids)^[spared.length]
    (resolveAll n entity ids (ran.map resolver) w).2
  cache : (resolveAll n entity ids (ran.map resolver) w).2.cache n entity =
    (w.cache n entity).add ((resolveAll n entity ids (ran.map resolver) w).1.flatMap kept)

theorem resolveAll_cons (resolver : Act (World σ) (Option Record))
    (rest : List (Act (World σ) (Option Record))) (w : World σ) :
    resolveAll n entity ids (resolver :: rest) w =
      ((resolveOne n entity ids resolver w).1 ::
          (resolveAll n entity ids rest (resolveOne n entity ids resolver w).2).1,
        (resolveAll n entity ids rest (resolveOne n entity ids resolver w).2).2) := rfl

/-- The first resolver gave the record. -/
theorem Shared.found {resolver : Nat → Act (World σ) (Option Record)} {i : Nat} {r : Record}
    {rest : List Nat} {now : World σ}
    (settles : Settles ids r (resolveOne n entity ids (resolver i) w).1)
    (found : ((resolveOne n entity ids (resolver i) w).2.cache n entity).find? ids = some r)
    (cache : (resolveOne n entity ids (resolver i) w).2.cache n entity =
      (w.cache n entity).add (kept (resolveOne n entity ids (resolver i) w).1))
    (world : now = (looked n entity ids)^[rest.length]
      (resolveOne n entity ids (resolver i) w).2) :
    Shared n entity ids resolver w [i] rest ((resolveOne n entity ids (resolver i) w).1 ::
      List.replicate rest.length (.ok (some r))) now where
  unsettled := by simp [resolveAll_cons, resolveAll]
  settled := .inr ⟨_, r, rfl, settles, found, rfl⟩
  world := world
  cache := by simpa [resolveAll_cons, resolveAll] using cache

/-- The first resolver did not give the record. -/
theorem Shared.cons {resolver : Nat → Act (World σ) (Option Record)} {i : Nat}
    {ran spared : List Nat} {results : List (Except Error (Option Record))} {now : World σ}
    (unsettled : ∀ r, ¬ Settles ids r (resolveOne n entity ids (resolver i) w).1)
    (cache : (resolveOne n entity ids (resolver i) w).2.cache n entity =
      (w.cache n entity).add (kept (resolveOne n entity ids (resolver i) w).1))
    (h : Shared n entity ids resolver (resolveOne n entity ids (resolver i) w).2 ran spared
      results now) :
    Shared n entity ids resolver w (i :: ran) spared
      ((resolveOne n entity ids (resolver i) w).1 :: results) now := by
  constructor
  · intro answer ha
    rw [List.map_cons, resolveAll_cons] at ha
    rcases hr : (resolveAll n entity ids (ran.map resolver)
        (resolveOne n entity ids (resolver i) w).2).1 with _ | ⟨second, more⟩
    · simp [hr] at ha
    · rw [hr, List.dropLast_cons_cons] at ha
      rcases List.mem_cons.mp ha with rfl | ha
      · exact unsettled
      · exact h.unsettled answer (hr ▸ ha)
  · rw [List.map_cons, resolveAll_cons]
    rcases h.settled with ⟨rfl, results⟩ | ⟨answer, r, last, settles, found, results⟩
    · exact .inl ⟨rfl, congrArg _ results⟩
    · refine .inr ⟨answer, r, ?_, settles, found, congrArg _ results⟩
      rw [List.getLast?_cons, last]
      rfl
  · rw [List.map_cons, resolveAll_cons]
    exact h.world
  · rw [List.map_cons, resolveAll_cons]
    dsimp only
    rw [h.cache, cache]
    simp [add]

/-- By induction on the calls: if the first resolver does not give the record, the rest of the calls
goes on as if it had been left out. -/
theorem serveAll_missing {resolver : Nat → Act (World σ) (Option Record)} {q : Queue (World σ)}
    {order : List Nat} (missing : (q.state.cache n entity).find? ids = none)
    (aloof : ∀ i ∈ order, Aloof n entity (resolver i)) :
    let later := Crowd.inTurn (fun i => (attempt n entity ids (resolver i)).run) q order
    ∃ ran spared, order = ran ++ spared ∧
      Shared n entity ids resolver q.state ran spared later.1 later.2.state := by
  induction order generalizing q with
  | nil =>
    refine ⟨[], [], rfl, ?_, .inl ⟨rfl, rfl⟩, rfl, ?_⟩
    · simp [resolveAll]
    · simp [resolveAll, add]
  | cons i rest ih =>
    obtain ⟨first, others⟩ := List.forall_mem_cons.mp aloof
    have served : q.serve (attempt n entity ids (resolver i)).run.run =
        ((resolveOne n entity ids (resolver i) q.state).1, { q with
          state := (resolveOne n entity ids (resolver i) q.state).2
          completed := q.completed + 1 }) := by
      rw [Queue.serve, run_attempt_missing missing]
    have cache := cache_resolveOne missing first
    have finds := find?_resolveOne missing first
    let v := (resolveOne n entity ids (resolver i) q.state).2
    let next : Queue (World σ) := { q with state := v, completed := q.completed + 1 }
    simp only [Crowd.inTurn, List.map_cons, Queue.serveAll, served]
    cases found : (v.cache n entity).find? ids with
    | some r =>
      obtain ⟨results, state⟩ := serveAll_found resolver (q := next) found rest
      refine ⟨[i], rest, rfl, ?_⟩
      have shared := Shared.found ((finds r).mp found) found cache state
      rw [← results] at shared
      exact shared
    | none =>
      obtain ⟨ran, spared, rfl, shared⟩ := ih (q := next) found others
      refine ⟨i :: ran, spared, rfl, ?_⟩
      refine shared.cons (fun r settles => ?_) cache
      rw [(finds r).mpr settles] at found
      contradiction

/-- Each look-up that finds the record counts as a hit, and nothing else changes. -/
theorem cache_looked_iterate {r : Record} (found : (w.cache n entity).find? ids = some r)
    (m : Nat) :
    let v := (looked n entity ids)^[m] w
    v.cache n entity = { w.cache n entity with hits := (w.cache n entity).hits + m } ∧
      (v.session n).hits = (w.session n).hits + m := by
  induction m generalizing w with
  | zero => exact ⟨rfl, rfl⟩
  | succ m ih =>
    obtain ⟨cache, hits⟩ := ih (w := looked n entity ids w) (by rw [find?_looked, found])
    have once : (looked n entity ids w).cache n entity =
        { w.cache n entity with hits := (w.cache n entity).hits + 1 } := by
      rw [looked, start_lookupStep, lookup_eq, cache_putCache, if_pos rfl, found]
      rfl
    have counted : ((looked n entity ids w).session n).hits = (w.session n).hits + 1 := by
      rw [looked, start_lookupStep, lookup_eq, found]
      exact hits_putSession ..
    refine ⟨?_, ?_⟩
    · rw [Function.iterate_succ_apply, cache, once, Nat.add_right_comm]
      rfl
    · rw [Function.iterate_succ_apply, hits, counted, Nat.add_right_comm]
      rfl

theorem Shared.counted {resolver : Nat → Act (World σ) (Option Record)} {ran spared : List Nat}
    {results : List (Except Error (Option Record))} {now : World σ}
    (h : Shared n entity ids resolver w ran spared results now) :
    now.cache n entity = { (w.cache n entity).add
        ((resolveAll n entity ids (ran.map resolver) w).1.flatMap kept) with
      hits := (w.cache n entity).hits + spared.length } ∧
      (now.session n).hits =
        ((resolveAll n entity ids (ran.map resolver) w).2.session n).hits + spared.length := by
  rw [h.world]
  rcases h.settled with ⟨rfl, -⟩ | ⟨-, r, -, -, found, -⟩
  · exact ⟨h.cache, rfl⟩
  · obtain ⟨cache, hits⟩ := cache_looked_iterate found spared.length
    exact ⟨cache.trans (by rw [h.cache]; rfl), hits⟩

/-- Any number of users look up a record that is not in the cache, in any order of arrival. All of
them are served. Those who come first have it resolved, each by his own resolver, which runs once,
up to the first whose resolver gives a record that can be kept and has the fields that are asked
for. All others get that record, for which they need no resolver, and count a hit each. Of the
answers of the resolvers that have run, all records are kept that are not empty. -/
theorem concurrent_lookups_shared {k : Nat} (missing : (w.cache n entity).find? ids = none)
    {resolver : Nat → Act (World σ) (Option Record)}
    (aloof : ∀ i < k, Aloof n entity (resolver i)) (schedule : List Nat) :
    let calls := (List.range k).map fun i => getOrResolve n entity (.object ids) (resolver i)
    let now := (Crowd.start w calls).follow schedule
    (∀ turns, now.Fair turns → ∃ m, (now.turned turns m).Ended) ∧
      (now.Ended → ∃ ran spared results, Crowd.arrivals k schedule = ran ++ spared ∧
        (ran ++ spared).Perm (List.range k) ∧
        (ran ++ spared).map (fun i => now.tasks[i]?) = results.map (fun a => some (.done a)) ∧
        Shared n entity ids resolver w ran spared results now.world ∧
        (now.world.cache n entity).entries = (w.cache n entity).entries ++
          (resolveAll n entity ids (ran.map resolver) w).1.flatMap kept ∧
        (now.world.cache n entity).hits = (w.cache n entity).hits + spared.length ∧
        (now.world.session n).hits =
          ((resolveAll n entity ids (ran.map resolver) w).2.session n).hits + spared.length) := by
  intro calls now
  let q : Queue (World σ) := { name := entity, state := w }
  let body (i : Nat) := (attempt n entity ids (resolver i)).run
  have start : Crowd.start w calls = Crowd.behind (.cache n entity) body k q.state := by
    simp only [Crowd.start, Crowd.behind, calls, List.map_map]
    rfl
  have apart : ∀ i < k, (body i).Aloof (.cache n entity) := fun i hi => (aloof i hi).attempt
  refine ⟨fun turns fair => ?_, fun ended => ?_⟩
  · simp only [now, start] at fair ⊢
    exact Crowd.behind_ends apart schedule fair
  · simp only [now, start] at ended ⊢
    obtain ⟨perm, world, results⟩ := Crowd.served_in_turn apart schedule ended
    have known : ∀ i ∈ Crowd.arrivals k schedule, Aloof n entity (resolver i) := by
      intro i hi
      exact aloof i (List.mem_range.mp (perm.mem_iff.mp hi))
    obtain ⟨ran, spared, order, shared⟩ := serveAll_missing (q := q) missing known
    rw [← world] at shared
    obtain ⟨cache, hits⟩ := shared.counted
    rw [order] at perm results
    refine ⟨ran, spared, _, order, perm, ?_, shared, ?_, ?_, hits⟩
    · rw [results, order]
    · rw [cache]
      rfl
    · rw [cache]

/-- The resolver of the first who comes gives an empty record, that of the second a record of
somebody else, and that of the third the record. The fourth, whose resolver would fail, finds it. -/
theorem concurrent_lookups_shared_third :
    let w : World Script := { wire := { link := { failures := [{ fragment := "users" }] } } }
    let ids : Record := [("id", .ofInt 1)]
    let other : Record := [("id", .ofInt 2)]
    let user : Record := [("id", .ofInt 1), ("name", .string "ann")]
    let resolver : Nat → Act (World Script) (Option Record)
      | 0 => (Draft.start "users").execute 1 >>= fun _ => .ofExcept (.ok none)
      | 1 => .ofExcept (.ok (some other))
      | 2 => .ofExcept (.ok (some []))
      | _ => .ofExcept (.ok (some user))
    let calls := (List.range 4).map fun i => getOrResolve 1 "user" (.object ids) (resolver i)
    let schedule := [2, 1, 1, 3, 0] ++ (List.replicate 30 [0, 1, 2, 3]).flatten
    let now := (Crowd.start w calls).follow schedule
    (w.cache 1 "user").find? ids = none ∧ (∀ i < 4, Aloof 1 "user" (resolver i)) ∧ now.Ended ∧
      Crowd.arrivals 4 schedule = [2, 1, 3, 0] ∧
      (∃ ran spared results, [2, 1, 3, 0] = ran ++ spared ∧
        Shared 1 "user" ids resolver w ran spared results now.world) ∧
      (now.world.cache 1 "user").entries = [other, user] ∧
      (now.world.cache 1 "user").hits = 1 ∧ now.world.wire.calls = [] := by
  intro w ids other user resolver calls schedule now
  have missing : (w.cache 1 "user").find? ids = none := rfl
  have errand (i : Nat) : Errand (σ := Script) False (resolver i) := by
    match i with
    | 0 => exact .bind (.execute 1 _) fun _ => .plan (.ofExcept _)
    | 1 | 2 | _ + 3 => exact .plan (.ofExcept _)
  have aloof : ∀ i < 4, Aloof 1 "user" (resolver i) := fun i _ => .of_errand (errand i) 1 "user"
  have ended : now.Ended := by
    have results : (now.tasks.all fun t => t.result?.isSome) = true := by decide +kernel
    exact fun t ht => .of_result? (List.all_eq_true.mp results t ht)
  have order : Crowd.arrivals 4 schedule = [2, 1, 3, 0] := by decide +kernel
  obtain ⟨-, served⟩ := concurrent_lookups_shared missing aloof schedule
  obtain ⟨ran, spared, results, split, -, -, shared, -⟩ := served ended
  refine ⟨missing, aloof, ended, order, ?_, by decide +kernel, by decide +kernel, by decide +kernel⟩
  exact ⟨ran, spared, results, order.symm.trans split, shared⟩

end Cache
end DataAccess
