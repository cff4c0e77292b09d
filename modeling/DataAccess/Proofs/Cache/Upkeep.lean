import DataAccess.Link.Scripted
import DataAccess.Proofs.Assoc
import DataAccess.Proofs.Cache.Storing
import DataAccess.Proofs.Errand

/-!
What the caches of a session hold after any number of requests, and how their hits are counted.
-/
namespace DataAccess

/-- The new value counts in the place of the old one. -/
theorem Assoc.sum_put {κ α : Type} [DecidableEq κ] (f : α → Nat) (entries : List (κ × α)) (key : κ)
    (value : α) :
    ((put entries key value).map fun e => f e.2).sum + ((get? entries key).map f).getD 0 =
      (entries.map fun e => f e.2).sum + f value := by
  induction entries with
  | nil => simp [put, get?]
  | cons e rest ih =>
    by_cases hk : e.1 = key
    · simp [put, get?, hk]
      omega
    · simp only [put, get?, hk, if_false, List.map_cons, List.sum_cons]
      omega

def Session.cacheHits (s : Session) : Nat := (s.caches.map fun e => e.2.hits).sum

theorem Session.cacheHits_putCache (s : Session) (entity : String) (c : Cache) :
    (s.putCache entity c).cacheHits + (s.cache entity).hits = s.cacheHits + c.hits := by
  have counted := Assoc.sum_put Cache.hits s.caches entity c
  have old : ((Assoc.get? s.caches entity).map Cache.hits).getD 0 = (s.cache entity).hits := by
    unfold cache
    cases Assoc.get? s.caches entity <;> rfl
  rwa [old] at counted

theorem Session.cache_putCache_ne (s : Session) {entity other : String} (h : entity ≠ other)
    (c : Cache) : (s.putCache entity c).cache other = s.cache other := by
  simp [cache, putCache, Assoc.get?_put, h]

namespace Cache

def Filled (c : Cache) : Prop := [] ∉ c.entries

/-- A change of a cache that stores no empty record, and counts no hit. -/
def Careful {α : Type} (f : Cache → Except Error (α × Cache)) : Prop :=
  ∀ c a c', f c = .ok (a, c') → c'.hits = c.hits ∧ (c.Filled → c'.Filled)

theorem listed_filled {items : List Json} {rs : List Record} (h : listed items = .ok rs) :
    [] ∉ rs := by
  induction items using listed.induct generalizing rs with
  | case1 =>
    cases h
    exact List.not_mem_nil
  | case2 rest ih => exact ih h
  | case3 rest ih => exact ih h
  | case4 fields rest hne ih =>
    rw [listed] at h
    · obtain ⟨more, hm, hrs⟩ := bind_eq_ok.mp h
      cases hrs
      intro hr
      rcases List.mem_cons.mp hr with hr | hr
      · exact hne hr.symm
      · exact ih hm hr
    · exact hne
  | case5 v rest h1 h2 h3 =>
    rw [listed] at h
    · contradiction
    · exact h1
    · exact h2
    · exact h3

theorem records_filled {values : Json} {rs : List Record} (h : records values = .ok rs) :
    [] ∉ rs := by
  unfold records at h
  split at h
  · cases h
    exact List.not_mem_nil
  · exact listed_filled h
  · split at h
    · exact listed_filled h
    · cases h
      split
      · exact List.not_mem_nil
      next fields _ _ nonempty =>
        rw [List.isEmpty_iff] at nonempty
        rw [List.mem_singleton]
        exact Ne.symm nonempty
  · contradiction

theorem Filled.add {c : Cache} (h : c.Filled) {rs : List Record} (hr : [] ∉ rs) :
    (c.add rs).Filled := by
  intro hm
  rcases List.mem_append.mp hm with hm | hm
  · exact h hm
  · exact hr hm

theorem Filled.remove {c : Cache} (h : c.Filled) (ids : Record) : (c.remove ids).Filled :=
  fun hm => h (List.mem_of_mem_filter hm)

theorem merge_filled {ids delta entry : Record} {entries changed : List Record}
    (h : [] ∉ entries) (hm : merge ids delta entries = some (entry, changed)) :
    [] ∉ changed := by
  induction entries generalizing changed with
  | nil => contradiction
  | cons e rest ih =>
    rw [List.mem_cons, not_or] at h
    rw [merge] at hm
    split at hm
    · cases hm
      rw [List.mem_cons, not_or]
      exact ⟨(Assoc.putAll_ne_nil (Ne.symm h.1) delta).symm, h.2⟩
    · obtain ⟨⟨_, others⟩, ho, hr⟩ := Option.map_eq_some_iff.mp hm
      cases hr
      rw [List.mem_cons, not_or]
      exact ⟨h.1, ih h.2 ho⟩

theorem careful_add {α : Type} {rs : List Record} (h : [] ∉ rs) (a : α) :
    Careful fun c => .ok (a, c.add rs) := by
  rintro c _ _ ⟨⟩
  exact ⟨rfl, fun filled => filled.add h⟩

theorem careful_set (values : Json) :
    Careful fun c => do return (values, ← c.set values) := by
  intro c a c' h
  obtain ⟨_, hs, ha⟩ := bind_eq_ok.mp h
  obtain ⟨rs, hr, hc⟩ := bind_eq_ok.mp hs
  cases ha
  cases hc
  exact ⟨rfl, fun filled => filled.add (records_filled hr)⟩

theorem careful_update (ids values : Json) :
    Careful fun c => do return (values, ← c.update ids values) := by
  intro c a c' h
  obtain ⟨_, hu, ha⟩ := bind_eq_ok.mp h
  obtain ⟨fields, -, hu⟩ := bind_eq_ok.mp hu
  obtain ⟨rs, hr, hc⟩ := bind_eq_ok.mp hu
  cases ha
  cases hc
  exact ⟨rfl, fun filled => (filled.remove fields).add (records_filled hr)⟩

theorem careful_patch (ids delta : Json) : Careful fun c => c.patch ids delta := by
  intro c a c' h
  obtain ⟨fields, -, hp⟩ := bind_eq_ok.mp h
  split at hp
  · split at hp
    next entry entries hm =>
      cases hp
      exact ⟨rfl, fun filled => merge_filled filled hm⟩
    · cases hp
      exact ⟨rfl, id⟩
  · contradiction

theorem careful_invalidate (ids : Json) : Careful fun c => c.invalidate ids := by
  intro c a c' h
  obtain ⟨fields, -, hi⟩ := bind_eq_ok.mp h
  cases hi
  exact ⟨rfl, fun filled => filled.remove fields⟩

section
variable {σ α : Type} {n : Nat} {entity : String} {w v u : World σ} {d more : Nat}

/-- Between two worlds session `n` has counted `d` hits, as have its caches, and nothing empty has
been stored. -/
structure Tended (n d : Nat) (w v : World σ) : Prop where
  filled : (∀ entity, (w.cache n entity).Filled) → ∀ entity, (v.cache n entity).Filled
  nodup : ((w.session n).caches.map Prod.fst).Nodup → ((v.session n).caches.map Prod.fst).Nodup
  hits : (v.session n).hits = (w.session n).hits + d
  cacheHits : (v.session n).cacheHits = (w.session n).cacheHits + d

theorem Tended.trans (first : Tended n d w v) (rest : Tended n more v u) :
    Tended n (d + more) w u where
  filled h := rest.filled (first.filled h)
  nodup h := rest.nodup (first.nodup h)
  hits := by rw [rest.hits, first.hits, Nat.add_assoc]
  cacheHits := by rw [rest.cacheHits, first.cacheHits, Nat.add_assoc]

theorem tended_of_eq (caches : (v.session n).caches = (w.session n).caches)
    (hits : (v.session n).hits = (w.session n).hits) : Tended n 0 w v where
  filled h entity := by
    rw [World.cache, Session.cache, caches]
    exact h entity
  nodup h := by rwa [caches]
  hits := hits
  cacheHits := by rw [Session.cacheHits, caches, Nat.add_zero, Session.cacheHits]

theorem cache_putCache (w : World σ) (c : Cache) (hits : Nat) (other : String) :
    (w.putSession n { (w.session n).putCache entity c with hits }).cache n other =
      if entity = other then c else w.cache n other := by
  rw [cache_putSession]
  split_ifs with h
  · subst h
    exact Session.cache_putCache (w.session n) entity c
  · exact Session.cache_putCache_ne (w.session n) h c

/-- A cache is put in the place of the one that was there. -/
theorem tended_put (w : World σ) (n : Nat) (entity : String) {c : Cache}
    (counted : c.hits = (w.cache n entity).hits + d)
    (filled : (w.cache n entity).Filled → c.Filled) :
    Tended n d w (w.putSession n
      { (w.session n).putCache entity c with hits := (w.session n).hits + d }) := by
  constructor
  · intro h other
    rw [cache_putCache]
    split_ifs
    · exact filled (h entity)
    · exact h other
  · intro h
    rw [World.session_putSession, if_pos rfl]
    exact Assoc.nodup_keys_put h entity c
  · exact hits_putSession ..
  · have total := Session.cacheHits_putCache (w.session n) entity c
    rw [World.session_putSession, if_pos rfl]
    show ((w.session n).putCache entity c).cacheHits = _
    have old : ((w.session n).cache entity).hits = (w.cache n entity).hits := rfl
    omega

/-- An operation counts `d` hits, stores nothing empty, and if it fails it stores nothing. -/
structure Tends (n d : Nat) (w : World σ) (x : Except Error α × World σ) : Prop
    extends Tended n d w x.2 where
  refused : ∀ e, x.1 = .error e →
    ∀ entity, (x.2.cache n entity).entries = (w.cache n entity).entries

theorem tends_still (outcome : Except Error α) : Tends n 0 w (outcome, w) where
  toTended := tended_of_eq rfl rfl
  refused _ _ _ := rfl

theorem tends_change {f : Cache → Except Error (α × Cache)} (careful : Careful f) :
    Tends n 0 w ((exclusive n entity (change n entity f)).start w) := by
  rw [exclusive, Act.start_holding, start_change]
  cases h : f (w.cache n entity) with
  | error e => exact tends_still _
  | ok r =>
    obtain ⟨hits, filled⟩ := careful _ _ _ h
    refine ⟨tended_put w n entity (d := 0) hits filled, ?_⟩
    intro e he
    contradiction

/-- A look-up counts a hit if there is what is looked up. -/
theorem lookup_eq (c : Cache) (ids : Record) :
    c.lookup ids = (c.find? ids, { c with hits := c.hits + (c.find? ids).isSome.toNat }) := by
  rw [lookup]
  split
  next e h => rw [h]; rfl
  next h => rw [h]; rfl

theorem tends_lookup (w : World σ) (n : Nat) (entity : String) (ids : Record) :
    Tends n ((w.cache n entity).find? ids).isSome.toNat w ((lookupStep n entity ids).start w) := by
  rw [start_lookupStep, lookup_eq]
  have put := tended_put w n entity
    (c := { w.cache n entity with
      hits := (w.cache n entity).hits + ((w.cache n entity).find? ids).isSome.toNat }) rfl id
  refine ⟨?_, nofun⟩
  cases h : ((w.cache n entity).find? ids).isSome <;> simpa [h] using put

/-- A look-up stores nothing. -/
theorem entries_lookupStep (w : World σ) (n : Nat) (entity : String) (ids : Record)
    (other : String) :
    (((lookupStep n entity ids).start w).2.cache n other).entries = (w.cache n other).entries := by
  rw [start_lookupStep, lookup_eq, cache_putCache]
  split_ifs with h
  · rw [h]
  · rfl

variable {ids : Json} {fields : Record} {resolver : Act (World σ) (Option Record)}

/-- A record that is there is not resolved. -/
theorem start_getOrResolve_hit (h : identifiers ids = .ok fields) {r : Record}
    (found : (w.cache n entity).find? fields = some r) :
    (getOrResolve n entity ids resolver).start w =
      (.ok (some r), ((lookupStep n entity fields).start w).2) := by
  have read : (Act.ofExcept (identifiers ids)).start w = (.ok fields, w) := by rw [h]; rfl
  have looked : (lookupStep n entity fields).start w =
      (.ok (some r), ((lookupStep n entity fields).start w).2) := by
    rw [start_lookupStep, lookup_eq, found]
  rw [getOrResolve, Act.start_bind_ok read, exclusive, Act.start_holding, Act.start_bind_ok looked]
  rfl

/-- A record that is not there is resolved, and what it is resolved to is stored. -/
theorem start_getOrResolve_missing (h : identifiers ids = .ok fields)
    (missing : (w.cache n entity).find? fields = none) :
    (getOrResolve n entity ids resolver).start w =
      match resolver.start ((lookupStep n entity fields).start w).2 with
      | (.error e, v) => (.error e, v)
      | (.ok resolved, v) => (.ok resolved, ((change n entity fun c =>
          .ok ((), c.add (resolved.toList.filter fun r => !r.isEmpty))).start v).2) := by
  have read : (Act.ofExcept (identifiers ids)).start w = (.ok fields, w) := by rw [h]; rfl
  have looked : (lookupStep n entity fields).start w =
      (.ok none, ((lookupStep n entity fields).start w).2) := by
    rw [start_lookupStep, lookup_eq, missing]
  rw [getOrResolve, Act.start_bind_ok read, exclusive, Act.start_holding, Act.start_bind_ok looked]
  dsimp only
  rcases hr : resolver.start ((lookupStep n entity fields).start w).2 with ⟨e | resolved, v⟩
  · exact Act.start_bind_error hr
  · rw [Act.start_bind_ok hr]
    rfl

end

/-- A task that leaves what session `n` has cached as it is, when it resolves a record. -/
structure Resolver (σ : Type) (n : Nat) where
  task : Act (World σ) (Option Record)
  caches : ∀ w : World σ, ((task.start w).2.session n).caches = (w.session n).caches
  hits : ∀ w : World σ, ((task.start w).2.session n).hits = (w.session n).hits

def Resolver.ofErrand {σ : Type} [Link σ] {commits : Prop} {task : Act (World σ) (Option Record)}
    (h : Errand commits task) (n : Nat) : Resolver σ n where
  task := task
  caches w := (h.start_sameStock w).caches n
  hits w := (h.start_sameStock w).hits n

/-- What is asked of the caches of session `n`. -/
inductive Request (σ : Type) (n : Nat) where
  | get (entity : String) (ids : Json)
  | getOrResolve (entity : String) (ids : Json) (resolver : Resolver σ n)
  | store (entity : String) (values : Json)
  | update (entity : String) (ids values : Json)
  | patch (entity : String) (ids delta : Json)
  | invalidate (entity : String) (ids : Json)

namespace Request
variable {σ α : Type} {n : Nat}

def reported (x : Except Error α × World σ) : Option Error × World σ := (failure? x.1, x.2)

/-- Why the request fails, if it does, and the world after it. -/
def serve (w : World σ) : Request σ n → Option Error × World σ
  | get entity ids => reported ((Cache.get n entity ids).start w)
  | getOrResolve entity ids resolver =>
    reported ((Cache.getOrResolve n entity ids resolver.task).start w)
  | store entity values => reported ((setIn n entity values).start w)
  | update entity ids values => reported ((updateIn n entity ids values).start w)
  | patch entity ids delta => reported ((patchIn n entity ids delta).start w)
  | invalidate entity ids => reported ((invalidateIn n entity ids).start w)

def present (w : World σ) (n : Nat) (entity : String) (ids : Json) : Bool :=
  match identifiers ids with
  | .ok ids => ((w.cache n entity).find? ids).isSome
  | .error _ => false

def finds (w : World σ) : Request σ n → Bool
  | get entity ids | getOrResolve entity ids _ => present w n entity ids
  | _ => false

def after (w : World σ) (requests : List (Request σ n)) : World σ :=
  requests.foldl (fun w r => (r.serve w).2) w

def found (w : World σ) : List (Request σ n) → Nat
  | [] => 0
  | r :: rest => (r.finds w).toNat + found (r.serve w).2 rest

end Request

section
variable {σ : Type} {n : Nat} {entity : String} {w : World σ}
open Request (present)

theorem tends_get (ids : Json) :
    Tends n (present w n entity ids).toNat w ((get n entity ids).start w) := by
  unfold present
  cases h : identifiers ids with
  | error e =>
    have refused : (Act.ofExcept (identifiers ids)).start w = (.error e, w) := by rw [h]; rfl
    rw [get, Act.start_bind_error refused]
    exact tends_still _
  | ok fields =>
    have read : (Act.ofExcept (identifiers ids)).start w = (.ok fields, w) := by rw [h]; rfl
    rw [get, Act.start_bind_ok read, exclusive, Act.start_holding]
    exact tends_lookup w n entity fields

theorem tends_getOrResolve (ids : Json) (resolver : Resolver σ n) :
    Tends n (present w n entity ids).toNat w
      ((getOrResolve n entity ids resolver.task).start w) := by
  unfold present
  cases h : identifiers ids with
  | error e =>
    have refused : (Act.ofExcept (identifiers ids)).start w = (.error e, w) := by rw [h]; rfl
    rw [getOrResolve, Act.start_bind_error refused]
    exact tends_still _
  | ok fields =>
    have looked := (tends_lookup w n entity fields).toTended
    dsimp only
    cases found : (w.cache n entity).find? fields with
    | some r =>
      rw [found] at looked
      rw [start_getOrResolve_hit h found]
      refine ⟨looked, ?_⟩
      intro e he
      contradiction
    | none =>
      rw [found] at looked
      rw [start_getOrResolve_missing h found]
      have stored := entries_lookupStep w n entity fields
      generalize ((lookupStep n entity fields).start w).2 = u at looked stored
      have spared : Tended n 0 u (resolver.task.start u).2 :=
        tended_of_eq (resolver.caches u) (resolver.hits u)
      have same := resolver.caches u
      rcases hr : resolver.task.start u with ⟨e | resolved, v⟩ <;> rw [hr] at spared same
      · refine ⟨looked.trans spared, fun _ _ other => ?_⟩
        rw [← stored other, World.cache, Session.cache, same]
        rfl
      · have careful : Careful fun c =>
            .ok ((), c.add (resolved.toList.filter fun r => !r.isEmpty)) :=
          careful_add (by simp) ()
        have kept := (tends_change careful : Tends n 0 v ((exclusive n entity _).start v))
        rw [exclusive, Act.start_holding] at kept
        refine ⟨(looked.trans spared).trans kept.toTended, ?_⟩
        intro e he
        contradiction

/-- Every request is served with care. -/
theorem Request.tends (r : Request σ n) (w : World σ) :
    Tended n (r.finds w).toNat w (r.serve w).2 ∧
      ∀ e, (r.serve w).1 = some e →
        ∀ entity, ((r.serve w).2.cache n entity).entries = (w.cache n entity).entries := by
  have report {α : Type} {d : Nat} {x : Except Error α × World σ} (h : Tends n d w x) :
      Tended n d w (reported x).2 ∧ ∀ e, (reported x).1 = some e →
        ∀ entity, ((reported x).2.cache n entity).entries = (w.cache n entity).entries := by
    refine ⟨h.toTended, fun e he => h.refused e ?_⟩
    rcases x with ⟨f | a, v⟩
    · cases he
      rfl
    · contradiction
  cases r with
  | get entity ids => exact report (tends_get ids)
  | getOrResolve entity ids resolver => exact report (tends_getOrResolve ids resolver)
  | store entity values => exact report (tends_change (careful_set values))
  | update entity ids values => exact report (tends_change (careful_update ids values))
  | patch entity ids delta => exact report (tends_change (careful_patch ids delta))
  | invalidate entity ids => exact report (tends_change (careful_invalidate ids))

theorem Request.tended_after (w : World σ) (requests : List (Request σ n)) :
    Tended n (found w requests) w (after w requests) := by
  induction requests generalizing w with
  | nil => exact tended_of_eq rfl rfl
  | cons r rest ih => exact (r.tends w).1.trans (ih _)

/-- Whatever is asked of the caches of a new session, in good form or not, and however resolvers
end: no empty record is ever stored, and a request that fails leaves the records of all caches as
they were. Of all hits of the caches together the session counts as many, and that many requests
have looked up a record that was there. -/
theorem requests_tended (unused : (w.session n).caches = []) (uncounted : (w.session n).hits = 0)
    (requests : List (Request σ n)) :
    let now := Request.after w requests
    (∀ entity, [] ∉ (now.cache n entity).entries) ∧
      ((now.session n).caches.map Prod.fst).Nodup ∧
      (now.session n).hits = ((now.session n).caches.map fun e => e.2.hits).sum ∧
      (now.session n).hits = Request.found w requests ∧
      ∀ r : Request σ n, ∀ e, (r.serve now).1 = some e →
        ∀ entity, ((r.serve now).2.cache n entity).entries = (now.cache n entity).entries := by
  intro now
  have tended : Tended n (Request.found w requests) w now := Request.tended_after w requests
  have empty (entity : String) : w.cache n entity = {} := by
    rw [World.cache, Session.cache, unused]
    rfl
  have counted : (now.session n).hits = Request.found w requests := by
    rw [tended.hits, uncounted, Nat.zero_add]
  refine ⟨?_, ?_, ?_, counted, ?_⟩
  · apply tended.filled
    intro entity
    rw [empty]
    exact List.not_mem_nil
  · apply tended.nodup
    rw [unused]
    exact .nil
  · have total := tended.cacheHits
    rw [Session.cacheHits, Session.cacheHits, unused] at total
    rw [counted, total]
    simp
  · intro r
    exact (r.tends now).2

/-- A record is resolved and found again. Nothing else counts as a hit: not the resolver that fails
although the record before it is there, nor the list with a number in it. -/
theorem requests_tended_mixed :
    let w : World Script := { wire := { link := { failures := [{ fragment := "users" }] } } }
    let user : Record := [("id", .ofInt 1)]
    let known : Resolver Script 1 :=
      @Resolver.ofErrand Script _ False _ (.plan (.ofExcept (.ok (some user)))) 1
    let failing : Resolver Script 1 :=
      @Resolver.ofErrand Script _ False _ (.bind (.execute 1 (.start "users")) fun _ =>
        .plan (.ofExcept (.ok none))) 1
    let requests : List (Request Script 1) :=
      [.getOrResolve "user" (.object user) known, .get "user" (.object user),
        .getOrResolve "user" (.object [("id", .ofInt 2)]) failing,
        .store "post" (.array [.object [], .null, .object [("user", .ofInt 1)]]),
        .patch "post" (.object [("user", .ofInt 1)]) .null, .invalidate "user" (.object user),
        .get "user" (.object user)]
    let broken : Request Script 1 := .store "post" (.array [.object user, .ofInt 3])
    let now := Request.after w requests
    (w.session 1).caches = [] ∧ (w.session 1).hits = 0 ∧
      (now.session 1).hits = 1 ∧ (∀ entity, [] ∉ (now.cache 1 entity).entries) ∧
      ((now.session 1).caches.map fun e => (e.1, e.2.entries, e.2.hits)) =
        [("user", [], 1), ("post", [[("user", .ofInt 1)]], 0)] ∧
      (broken.serve now).1.isSome = true ∧
      ((broken.serve now).2.cache 1 "post").entries = (now.cache 1 "post").entries := by
  intro w user known failing requests broken now
  have unused : (w.session 1).caches = [] := rfl
  have uncounted : (w.session 1).hits = 0 := rfl
  obtain ⟨filled, -, -, hits, refused⟩ := requests_tended unused uncounted requests
  have found : Request.found w requests = 1 := by decide +kernel
  have fails : (broken.serve now).1.isSome = true := by decide +kernel
  obtain ⟨e, he⟩ := Option.isSome_iff_exists.mp fails
  exact ⟨unused, uncounted, hits.trans found, filled, by decide +kernel, fails,
    refused broken e he "post"⟩

end
end Cache
end DataAccess
