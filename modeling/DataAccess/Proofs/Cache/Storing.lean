import DataAccess.Cache.Access
import DataAccess.Link.Scripted
import DataAccess.Proofs.Outcome
import DataAccess.Proofs.Session.Structured

/-!
The two ways for a record into a cache: it is stored by a user, or resolved when it is looked up.
They differ for a record that is taken for a page.
-/
namespace DataAccess

theorem Session.cache_putCache (s : Session) (entity : String) (c : Cache) :
    (s.putCache entity c).cache entity = c := by
  simp [cache, putCache, Assoc.get?_put]

def World.cache {σ : Type} (w : World σ) (n : Nat) (entity : String) : Cache :=
  (w.session n).cache entity

namespace Cache

/-- Every given field is in the record, with an equal value. -/
def Holds (r ids : Record) : Prop := ∀ e ∈ ids, ∃ v, Assoc.get? r e.1 = some v ∧ v.same e.2 = true

theorem Holds.agrees {r ids : Record} (h : Holds r ids) : agrees ids r = true := by
  rw [Cache.agrees, List.all_eq_true]
  intro e he
  obtain ⟨v, hv, same⟩ := h e he
  rw [hv]
  exact same

theorem records_of_record {r : Record} (nonempty : r ≠ []) (h : pageItems? r = none) :
    records (.object r) = .ok [r] := by
  simp [records, h, nonempty]

theorem records_of_page {r : Record} {items : List Json} (h : pageItems? r = some items) :
    records (.object r) = listed items := by
  simp [records, h]

theorem mem_of_listed {items : List Json} {rs : List Record} (h : listed items = .ok rs)
    {r : Record} (hr : r ∈ rs) : .object r ∈ items := by
  induction items using listed.induct generalizing rs with
  | case1 =>
    cases h
    contradiction
  | case2 rest ih => exact List.mem_cons_of_mem _ (ih h hr)
  | case3 rest ih => exact List.mem_cons_of_mem _ (ih h hr)
  | case4 fields rest hne ih =>
    rw [listed] at h
    · obtain ⟨more, hm, hrs⟩ := bind_eq_ok.mp h
      cases hrs
      rcases List.mem_cons.mp hr with rfl | hr
      · exact List.mem_cons_self
      · exact List.mem_cons_of_mem _ (ih hm hr)
    · exact hne
  | case5 v rest h1 h2 h3 =>
    rw [listed] at h
    · contradiction
    · exact h1
    · exact h2
    · exact h3

theorem pageItems?_eq_some {r : Record} {items : List Json} :
    pageItems? r = some items ↔
      Assoc.get? r "items" = some (.array items) ∧ (Assoc.get? r "total").isSome := by
  unfold pageItems?
  split
  next listed total hi ht => simp [hi, ht]
  next other =>
    simp only [reduceCtorEq, false_iff, not_and]
    intro hi ht
    obtain ⟨total, ht⟩ := Option.isSome_iff_exists.mp ht
    exact other items total hi ht

/-- No page lists itself. -/
theorem not_mem_listed {r : Record} {items : List Json} (h : pageItems? r = some items)
    {rs : List Record} (hl : listed items = .ok rs) : r ∉ rs := by
  intro hr
  have inside := List.sizeOf_lt_of_mem (mem_of_listed hl hr)
  have outside := List.sizeOf_lt_of_mem (Assoc.mem_of_get? (pageItems?_eq_some.mp h).1)
  simp only [Json.object.sizeOf_spec, Json.array.sizeOf_spec, Prod.mk.sizeOf_spec] at inside outside
  omega

theorem find?_add {c : Cache} {r ids : Record} (fresh : ∀ e ∈ c.entries, agrees ids e = false)
    (h : agrees ids r = true) : (c.add [r]).find? ids = some r := by
  have none : c.entries.find? (agrees ids) = none := by
    rw [List.find?_eq_none]
    exact fun e he => by simp [fresh e he]
  simp [find?, add, List.find?_append, none, h]

section
variable {σ α : Type} {w : World σ} {n : Nat} {entity : String}

theorem start_change (f : Cache → Except Error (α × Cache)) :
    (change n entity f).start w = match f (w.cache n entity) with
      | .ok (a, c) => (Except.ok a, w.putSession n ((w.session n).putCache entity c))
      | .error e => (Except.error e, w) := rfl

theorem cache_putSession (w : World σ) (n : Nat) (s : Session) (entity : String) :
    (w.putSession n s).cache n entity = s.cache entity := by
  rw [World.cache, World.session_putSession, if_pos rfl]

theorem hits_putSession (w : World σ) (n : Nat) (s : Session) :
    ((w.putSession n s).session n).hits = s.hits := by
  rw [World.session_putSession, if_pos rfl]

/-- A change that is accepted puts another cache in the place of the one that was there. -/
theorem start_exclusive_ok {f : Cache → Except Error (α × Cache)} {a : α} {c : Cache}
    (h : f (w.cache n entity) = .ok (a, c)) :
    (exclusive n entity (change n entity f)).start w =
      (.ok a, w.putSession n ((w.session n).putCache entity c)) := by
  rw [exclusive, Act.start_holding, start_change, h]

theorem start_exclusive_error {f : Cache → Except Error (α × Cache)} {e : Error}
    (h : f (w.cache n entity) = .error e) :
    (exclusive n entity (change n entity f)).start w = (.error e, w) := by
  rw [exclusive, Act.start_holding, start_change, h]

/-- What is stored is what the values are read as. -/
theorem start_setIn_ok {values : Json} {rs : List Record} (h : records values = .ok rs) :
    (setIn n entity values).start w = (.ok values, w.putSession n
      ((w.session n).putCache entity ((w.cache n entity).add rs))) :=
  start_exclusive_ok (by rw [Cache.set, h]; rfl)

/-- Values that cannot be read change nothing. -/
theorem start_setIn_error {values : Json} {e : Error} (h : records values = .error e) :
    (setIn n entity values).start w = (.error e, w) :=
  start_exclusive_error (by rw [Cache.set, h]; rfl)

theorem start_identifiers (ids : Record) :
    (Act.ofExcept (identifiers (.object ids))).start w = (.ok ids, w) := rfl

theorem start_lookupStep (ids : Record) :
    (lookupStep n entity ids).start w =
      (.ok ((w.cache n entity).lookup ids).1, w.putSession n
        { (w.session n).putCache entity ((w.cache n entity).lookup ids).2 with
          hits := if ((w.cache n entity).lookup ids).1.isSome then (w.session n).hits + 1
            else (w.session n).hits }) := rfl

/-- A look-up that finds a record counts one hit. -/
theorem start_get_hit {ids r : Record} (h : (w.cache n entity).find? ids = some r) :
    let found := (get n entity (.object ids)).start w
    found.1 = .ok (some r) ∧
      found.2.cache n entity = { w.cache n entity with hits := (w.cache n entity).hits + 1 } ∧
      (found.2.session n).hits = (w.session n).hits + 1 := by
  have hit : (w.cache n entity).lookup ids =
      (some r, { w.cache n entity with hits := (w.cache n entity).hits + 1 }) := by
    rw [lookup, h]
  rw [get, Act.start_bind_ok (start_identifiers ids), exclusive, Act.start_holding,
    start_lookupStep, hit]
  refine ⟨rfl, ?_, hits_putSession w n _⟩
  rw [cache_putSession]
  exact Session.cache_putCache ..

/-- A look-up that finds nothing stores what it is resolved to. -/
theorem start_getOrResolve_miss {ids r : Record} (nonempty : r ≠ [])
    (h : (w.cache n entity).find? ids = none) {resolver : Act (World σ) (Option Record)}
    (resolves : ∀ u : World σ, ∃ v, resolver.start u = (.ok (some r), v) ∧
      v.cache n entity = u.cache n entity) :
    let resolved := (getOrResolve n entity (.object ids) resolver).start w
    resolved.1 = .ok (some r) ∧ resolved.2.cache n entity = (w.cache n entity).add [r] := by
  have missed : (w.cache n entity).lookup ids = (none, w.cache n entity) := by rw [lookup, h]
  have looked : (lookupStep n entity ids).start w =
      (.ok none, w.putSession n ((w.session n).putCache entity (w.cache n entity))) := by
    rw [start_lookupStep, missed]
    rfl
  obtain ⟨v, hv, same⟩ := resolves (w.putSession n ((w.session n).putCache entity (w.cache n entity)))
  have unchanged : v.cache n entity = w.cache n entity := by
    rw [same, cache_putSession, Session.cache_putCache]
  have kept : (some r).toList.filter (fun r : Record => !r.isEmpty) = [r] := by simp [nonempty]
  have stored : (change n entity fun c => .ok ((), c.add [r])).start v =
      (.ok (), v.putSession n ((v.session n).putCache entity ((v.cache n entity).add [r]))) := rfl
  rw [getOrResolve, Act.start_bind_ok (start_identifiers ids), exclusive, Act.start_holding,
    Act.start_bind_ok looked]
  dsimp only
  rw [Act.start_bind_ok hv, kept, Act.start_bind_ok stored]
  refine ⟨rfl, ?_⟩
  rw [← unchanged]
  exact (cache_putSession ..).trans (Session.cache_putCache ..)

/-- A record that no look-up has found so far is stored as it is, and found by its fields from then
on, unless it has a list under `items` and anything under `total`. Such a one is taken for a page,
of which the listed records are stored and the record itself never; as the answer of a resolver it
is stored as it is too. -/
theorem record_stored {r ids : Record} (nonempty : r ≠ []) (held : Holds r ids)
    (fresh : ∀ e ∈ (w.cache n entity).entries, agrees ids e = false)
    {resolver : Act (World σ) (Option Record)}
    (resolves : ∀ u : World σ, ∃ v, resolver.start u = (.ok (some r), v) ∧
      v.cache n entity = u.cache n entity) :
    let c := w.cache n entity
    let stored := (setIn n entity (.object r)).start w
    let resolved := (getOrResolve n entity (.object ids) resolver).start w
    resolved.1 = .ok (some r) ∧ (resolved.2.cache n entity).entries = c.entries ++ [r] ∧
      match pageItems? r with
      | none =>
        let found := (get n entity (.object ids)).start stored.2
        stored.1 = .ok (.object r) ∧ (stored.2.cache n entity).entries = c.entries ++ [r] ∧
          found.1 = .ok (some r) ∧ (found.2.cache n entity).hits = c.hits + 1 ∧
          (found.2.session n).hits = (w.session n).hits + 1
      | some items =>
        match listed items with
        | .ok rs => stored.1 = .ok (.object r) ∧
          (stored.2.cache n entity).entries = c.entries ++ rs ∧ r ∉ rs
        | .error e => stored = (.error e, w) := by
  intro c stored resolved
  have missing : c.find? ids = none := List.find?_eq_none.mpr fun e he => by simp [fresh e he]
  obtain ⟨result, kept⟩ := start_getOrResolve_miss nonempty missing resolves
  refine ⟨result, congrArg Cache.entries kept, ?_⟩
  have added {rs : List Record} (h : records (.object r) = .ok rs) :
      stored.1 = .ok (.object r) ∧ stored.2.cache n entity = c.add rs ∧
        (stored.2.session n).hits = (w.session n).hits := by
    rw [show stored = _ from start_setIn_ok h]
    exact ⟨rfl, (cache_putSession ..).trans (Session.cache_putCache ..), hits_putSession ..⟩
  cases hp : pageItems? r with
  | none =>
    obtain ⟨answer, cache, hits⟩ := added (records_of_record nonempty hp)
    have present : (stored.2.cache n entity).find? ids = some r := by
      rw [cache]
      exact find?_add fresh held.agrees
    obtain ⟨found, counted, more⟩ := start_get_hit present
    refine ⟨answer, congrArg Cache.entries cache, found, ?_, more.trans (congrArg _ hits)⟩
    rw [counted, cache]
    rfl
  | some items =>
    dsimp only
    cases hl : listed items with
    | ok rs =>
      obtain ⟨answer, cache, -⟩ := added ((records_of_page hp).trans hl)
      exact ⟨answer, congrArg Cache.entries cache, not_mem_listed hp hl⟩
    | error e => exact start_setIn_error ((records_of_page hp).trans hl)

end

/-- A record with a total beside an item is stored as it is. -/
theorem record_stored_total :
    let w : World Script := { wire := { link := {} } }
    let r : Record := [("id", .ofInt 1), ("item", .array []), ("total", .ofInt 3)]
    let ids : Record := [("id", .ofInt 1)]
    let stored := (setIn 1 "user" (.object r)).start w
    let resolved := (getOrResolve 1 "user" (.object ids) (pure (some r))).start w
    r ≠ [] ∧ Holds r ids ∧ (∀ e ∈ (w.cache 1 "user").entries, agrees ids e = false) ∧
      (resolved.2.cache 1 "user").entries = [r] ∧ (stored.2.cache 1 "user").entries = [r] ∧
      ((get 1 "user" (.object ids)).start stored.2).1 = .ok (some r) := by
  intro w r ids stored resolved
  have nonempty : r ≠ [] := by decide
  have held : Holds r ids := by
    intro e he
    cases List.mem_singleton.mp he
    exact ⟨.ofInt 1, rfl, by decide⟩
  have fresh : ∀ e ∈ (w.cache 1 "user").entries, agrees ids e = false := by decide
  have resolves : ∀ u : World Script, ∃ v,
      Act.start (pure (some r)) u = (.ok (some r), v) ∧ v.cache 1 "user" = u.cache 1 "user" :=
    fun u => ⟨u, rfl, rfl⟩
  obtain ⟨-, kept, -, added, found, -⟩ := record_stored nonempty held fresh resolves
  exact ⟨nonempty, held, fresh, kept, added, found⟩

/-- A record with a total beside a list of items is not stored when it is given to be stored, but
is when it is the answer of a resolver. -/
theorem record_stored_misread :
    let w : World Script := { wire := { link := {} } }
    let r : Record := [("id", .ofInt 1), ("items", .array []), ("total", .ofInt 3)]
    let ids : Record := [("id", .ofInt 1)]
    let stored := (setIn 1 "user" (.object r)).start w
    let resolved := (getOrResolve 1 "user" (.object ids) (pure (some r))).start w
    Holds r ids ∧ (w.cache 1 "user").entries = [] ∧
      stored.1 = .ok (.object r) ∧ (stored.2.cache 1 "user").entries = [] ∧
      ((get 1 "user" (.object ids)).start stored.2).1 = .ok none ∧
      (resolved.2.cache 1 "user").entries = [r] := by
  refine ⟨fun e he => ?_, rfl, rfl, rfl, rfl, rfl⟩
  cases List.mem_singleton.mp he
  exact ⟨.ofInt 1, rfl, by decide⟩

end Cache
end DataAccess
