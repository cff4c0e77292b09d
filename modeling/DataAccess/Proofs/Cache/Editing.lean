import DataAccess.Proofs.Assoc
import DataAccess.Proofs.Cache.Upkeep

/-!
What is left in a cache when records are replaced, dropped or patched. Records are told by some of
their fields, so that one request may be about many of them, or about none.
-/
namespace DataAccess

def World.putCache {σ : Type} (w : World σ) (n : Nat) (entity : String) (c : Cache) : World σ :=
  w.putSession n ((w.session n).putCache entity c)

namespace World
variable {σ : Type} (w : World σ) (n : Nat) (entity : String) (c d : Cache)

theorem cache_putCache : (w.putCache n entity c).cache n entity = c :=
  (Cache.cache_putSession w n _ entity).trans (Session.cache_putCache _ entity c)

theorem putCache_putCache :
    (w.putCache n entity c).putCache n entity d = w.putCache n entity d := by
  have session : (w.putCache n entity c).session n = (w.session n).putCache entity c := by
    rw [putCache, session_putSession, if_pos rfl]
  have twice : ((w.session n).putCache entity c).putCache entity d =
      (w.session n).putCache entity d := by
    simp only [Session.putCache, Assoc.put_put]
  rw [putCache, session, twice, putCache, putCache, putSession, putSession, Assoc.put_put]
  rfl

end World

namespace Cache

/-- Every given field has its value in the record, where a field that is missing counts as null. -/
def Matches (ids r : Record) : Prop :=
  ∀ e ∈ ids, ((Assoc.get? r e.1).getD .null).same e.2 = true

instance (ids r : Record) : Decidable (Matches ids r) :=
  inferInstanceAs (Decidable (∀ e ∈ ids, _))

theorem agrees_eq (ids r : Record) : agrees ids r = decide (Matches ids r) := by
  rw [Bool.eq_iff_iff, decide_eq_true_iff, agrees, List.all_eq_true]
  rfl

/-- What is given to be stored, one by one: the elements of a list, those that a page lists, or the
value itself. -/
def given : Json → List Json
  | .null => []
  | .array items => items
  | .object fields => (pageItems? fields).getD [.object fields]
  | v => [v]

def Storable (values : Json) : Prop := ∀ v ∈ given values, v = .null ∨ v.fields?.isSome

instance (values : Json) : Decidable (Storable values) :=
  inferInstanceAs (Decidable (∀ v ∈ given values, _))

def filled? (v : Json) : Option Record := v.fields?.filter fun r => !r.isEmpty

def recordsIn (values : Json) : List Record := (given values).filterMap filled?

theorem listed_eq_ok {items : List Json} (h : ∀ v ∈ items, v = .null ∨ v.fields?.isSome) :
    listed items = .ok (items.filterMap filled?) := by
  induction items using listed.induct with
  | case1 => rfl
  | case2 rest ih | case3 rest ih =>
    rw [listed, ih (List.forall_mem_cons.mp h).2]
    rfl
  | case4 fields rest filled ih =>
    have kept : filled? (.object fields) = some fields := by
      cases fields with
      | nil => contradiction
      | cons => rfl
    rw [listed, ih (List.forall_mem_cons.mp h).2, List.filterMap_cons_some kept]
    · rfl
    · exact filled
  | case5 v rest h1 h2 h3 =>
    have good := (List.forall_mem_cons.mp h).1
    cases v <;> simp_all [Json.fields?]

theorem listed_error {items : List Json} (h : ¬∀ v ∈ items, v = .null ∨ v.fields?.isSome) :
    ∃ e, listed items = .error e := by
  induction items using listed.induct with
  | case1 => exact absurd (by simp) h
  | case2 rest ih | case3 rest ih =>
    rw [listed]
    exact ih fun others => h (List.forall_mem_cons.mpr ⟨by simp [Json.fields?], others⟩)
  | case4 fields rest filled ih =>
    obtain ⟨e, he⟩ :=
      ih fun others => h (List.forall_mem_cons.mpr ⟨by simp [Json.fields?], others⟩)
    refine ⟨e, ?_⟩
    rw [listed, he]
    · rfl
    · exact filled
  | case5 v rest h1 h2 h3 =>
    rw [listed]
    · exact ⟨_, rfl⟩
    · exact h1
    · exact h2
    · exact h3

/-- What is given is read one by one, unless it is neither a record nor a collection. -/
theorem records_cases (values : Json) :
    records values = listed (given values) ∨ ¬Storable values ∧ ∃ e, records values = .error e := by
  cases values with
  | null | array => exact .inl rfl
  | object fields =>
    refine .inl ?_
    cases hp : pageItems? fields with
    | some items => rw [records_of_page hp, given, hp, Option.getD_some]
    | none =>
      simp only [records, given, hp]
      cases fields <;> rfl
  | bool | number | string => exact .inr ⟨by simp [Storable, given, Json.fields?], _, rfl⟩

/-- Storable values are accepted, and their records are stored in order. -/
theorem records_eq_ok {values : Json} (h : Storable values) :
    records values = .ok (recordsIn values) := by
  rcases records_cases values with same | ⟨bad, -⟩
  · rw [same]
    exact listed_eq_ok h
  · exact absurd h bad

theorem records_error {values : Json} (h : ¬Storable values) : ∃ e, records values = .error e := by
  rcases records_cases values with same | ⟨-, refused⟩
  · rw [same]
    exact listed_error h
  · exact refused

section
variable {σ : Type} {w : World σ} {n : Nat} {entity : String} {ids : Record}

theorem start_get (w : World σ) (n : Nat) (entity : String) (ids : Record) :
    ((get n entity (.object ids)).start w).1 =
      .ok ((w.cache n entity).entries.find? fun r => Matches ids r) := by
  have same : (w.cache n entity).find? ids =
      (w.cache n entity).entries.find? fun r => Matches ids r := by
    rw [find?, funext (agrees_eq ids)]
  rw [get, Act.start_bind_ok (start_identifiers ids), exclusive, Act.start_holding,
    start_lookupStep, lookup_eq, same]

theorem start_updateIn {values : Json} {rs : List Record} (h : records values = .ok rs) :
    (updateIn n entity (.object ids) values).start w =
      (.ok values, w.putCache n entity (((w.cache n entity).remove ids).add rs)) :=
  start_exclusive_ok (by rw [update, h]; rfl)

theorem start_updateIn_error {values : Json} {e : Error} (h : records values = .error e) :
    (updateIn n entity (.object ids) values).start w = (.error e, w) :=
  start_exclusive_error (by rw [update, h]; rfl)

/-- The records that do not match are left, and the others are counted. -/
theorem entries_remove (c : Cache) (ids : Record) :
    (c.remove ids).entries = c.entries.filter fun r => ¬Matches ids r := by
  simp only [remove, agrees_eq, decide_not]

theorem countP_add_length_filter (ids : Record) (rs : List Record) :
    rs.countP (fun r => Matches ids r) + (rs.filter fun r => ¬Matches ids r).length =
      rs.length := by
  have counted := rs.length_eq_countP_add_countP fun r => decide (Matches ids r)
  simp only [decide_eq_true_eq] at counted
  rw [← List.countP_eq_length_filter, counted]

theorem start_invalidateIn (w : World σ) (n : Nat) (entity : String) (ids : Record) :
    (invalidateIn n entity (.object ids)).start w =
      (.ok ((w.cache n entity).entries.countP fun r => Matches ids r),
        w.putCache n entity ((w.cache n entity).remove ids)) := by
  have counted := countP_add_length_filter ids (w.cache n entity).entries
  rw [← entries_remove] at counted
  have removed : (w.cache n entity).entries.length -
      ((w.cache n entity).remove ids).entries.length =
        (w.cache n entity).entries.countP fun r => Matches ids r := by omega
  refine start_exclusive_ok ?_
  rw [← removed]
  rfl

/-- An update is a removal of the records that match, and then the storing of the new ones. What
stays is in its old order and the new records come after it in the order in which they are given, so
that a look-up finds the first of these that matches. A removal tells how many records it has
removed, and nothing is found after it. Values that cannot be stored leave everything as it is. -/
theorem update_replaces_matching (w : World σ) (n : Nat) (entity : String) (ids : Record)
    (values : Json) :
    let c := w.cache n entity
    let updated := (updateIn n entity (.object ids) values).start w
    let removed := (invalidateIn n entity (.object ids)).start w
    (Storable values →
      updated.1 = .ok values ∧ updated = (setIn n entity values).start removed.2 ∧
        (updated.2.cache n entity).entries =
          c.entries.filter (fun r => ¬Matches ids r) ++ recordsIn values ∧
        ((get n entity (.object ids)).start updated.2).1 =
          .ok ((recordsIn values).find? fun r => Matches ids r)) ∧
      (¬Storable values → ∃ e, updated = (.error e, w)) ∧
      (∃ count, removed.1 = .ok count ∧
        count + (removed.2.cache n entity).entries.length = c.entries.length) ∧
      (removed.2.cache n entity).entries = c.entries.filter (fun r => ¬Matches ids r) ∧
      ((get n entity (.object ids)).start removed.2).1 = .ok none := by
  intro c updated removed
  have removal : removed = (.ok (c.entries.countP fun r => Matches ids r),
    w.putCache n entity (c.remove ids)) := start_invalidateIn w n entity ids
  have left : (removed.2.cache n entity).entries = c.entries.filter fun r => ¬Matches ids r := by
    rw [removal, World.cache_putCache, entries_remove]
  have none_left : (c.entries.filter fun r => ¬Matches ids r).find? (fun r => Matches ids r) =
      none := by
    rw [List.find?_eq_none]
    intro r hr
    simpa using (List.mem_filter.mp hr).2
  refine ⟨fun storable => ?_, fun bad => ?_, ⟨_, congrArg Prod.fst removal, ?_⟩, left, ?_⟩
  · have update : updated = (.ok values, w.putCache n entity
        ((c.remove ids).add (recordsIn values))) := start_updateIn (records_eq_ok storable)
    have entries : (updated.2.cache n entity).entries =
        c.entries.filter (fun r => ¬Matches ids r) ++ recordsIn values := by
      rw [update, World.cache_putCache, add, entries_remove]
    refine ⟨congrArg Prod.fst update, ?_, entries, ?_⟩
    · rw [update, start_setIn_ok (records_eq_ok storable), removal, World.cache_putCache]
      exact congrArg _ (World.putCache_putCache w n entity _ _).symm
    · rw [start_get, entries, List.find?_append, none_left, Option.none_or]
  · obtain ⟨e, he⟩ := records_error bad
    exact ⟨e, start_updateIn_error he⟩
  · rw [left]
    exact countP_add_length_filter ids c.entries
  · rw [start_get, left, none_left]

/-- Records are replaced by one that matches as well, because it lacks the field that is null, and
by another one; the page has other things beside them. -/
theorem update_replaces_matching_page :
    let c : Cache := { entries := [[("id", .ofInt 1)], [("id", .ofInt 2), ("gone", .bool true)],
      [("id", .ofInt 3), ("gone", .null)]] }
    let w : World Script := { wire := { link := {} } }
    let w := w.putCache 1 "user" c
    let ids : Record := [("gone", .null)]
    let values : Json := .object [("total", .ofInt 4), ("items", .array
      [.null, .object [("id", .ofInt 5), ("gone", .bool true)], .object [],
        .object [("id", .ofInt 4)]])]
    let updated := (updateIn 1 "user" (.object ids) values).start w
    let removed := (invalidateIn 1 "user" (.object ids)).start w
    Storable values ∧ updated = (setIn 1 "user" values).start removed.2 ∧
      (updated.2.cache 1 "user").entries = [[("id", .ofInt 2), ("gone", .bool true)],
        [("id", .ofInt 5), ("gone", .bool true)], [("id", .ofInt 4)]] ∧
      ((get 1 "user" (.object ids)).start updated.2).1 = .ok (some [("id", .ofInt 4)]) ∧
      ((get 1 "user" (.object ids)).start removed.2).1 = .ok none := by
  intro c w₀ w ids values updated removed
  have storable : Storable values := by decide
  obtain ⟨replaced, -, -, -, unfound⟩ := update_replaces_matching w 1 "user" ids values
  obtain ⟨-, same, entries, found⟩ := replaced storable
  exact ⟨storable, same, entries, found, unfound⟩

end

section
variable {σ : Type} {w : World σ} {n : Nat} {entity : String} {ids delta : Record}

theorem merge_eq_none {rs : List Record} (h : ∀ r ∈ rs, ¬Matches ids r) :
    merge ids delta rs = none := by
  induction rs with
  | nil => rfl
  | cons r rest ih =>
    obtain ⟨here, others⟩ := List.forall_mem_cons.mp h
    rw [merge, agrees_eq, if_neg (by simpa using here), ih others]
    rfl

theorem merge_eq_some {before after : List Record} {old : Record}
    (h : ∀ r ∈ before, ¬Matches ids r) (first : Matches ids old) :
    merge ids delta (before ++ old :: after) =
      some (Assoc.putAll old delta, before ++ Assoc.putAll old delta :: after) := by
  induction before with
  | nil => rw [List.nil_append, merge, agrees_eq, if_pos (by simpa using first)]; rfl
  | cons r before ih =>
    obtain ⟨here, others⟩ := List.forall_mem_cons.mp h
    rw [List.cons_append, merge, agrees_eq, if_neg (by simpa using here), ih others]
    rfl

/-- The first record that matches, among those around it. -/
theorem matching_cases (ids : Record) (rs : List Record) :
    (∀ r ∈ rs, ¬Matches ids r) ∨ ∃ before old after, rs = before ++ old :: after ∧
      (∀ r ∈ before, ¬Matches ids r) ∧ Matches ids old := by
  cases h : rs.find? (fun r => Matches ids r) with
  | none => exact .inl (by simpa using List.find?_eq_none.mp h)
  | some old =>
    obtain ⟨first, before, after, split, others⟩ := List.find?_eq_some_iff_append.mp h
    exact .inr ⟨before, old, after, split, by simpa using others, by simpa using first⟩

/-- A record that matches still does after a change that is in agreement with what it was found
by. -/
theorem Matches.putAll {r : Record} (h : Matches ids r)
    (agreed : ∀ e ∈ ids, ∀ v, (e.1, v) ∈ delta → v.same e.2 = true) :
    Matches ids (Assoc.putAll r delta) := by
  intro e he
  rcases Assoc.get?_putAll_cases r delta e.1 with ⟨-, same⟩ | ⟨v, hv, put⟩
  · rw [same]
    exact h e he
  · rw [put]
    exact agreed e he v hv

theorem patch_object (c : Cache) (ids delta : Record) :
    c.patch (.object ids) (.object delta) = match merge ids delta c.entries with
      | some (r, entries) => .ok (some r, { c with entries })
      | none => .ok (none, c) := rfl

theorem start_patchIn_none (h : ∀ r ∈ (w.cache n entity).entries, ¬Matches ids r) :
    (patchIn n entity (.object ids) (.object delta)).start w =
      (.ok none, w.putCache n entity (w.cache n entity)) :=
  start_exclusive_ok (by rw [patch_object, merge_eq_none h])

theorem start_patchIn_some {before after : List Record} {old : Record}
    (split : (w.cache n entity).entries = before ++ old :: after)
    (h : ∀ r ∈ before, ¬Matches ids r) (first : Matches ids old) :
    (patchIn n entity (.object ids) (.object delta)).start w =
      (.ok (some (Assoc.putAll old delta)), w.putCache n entity { w.cache n entity with
        entries := before ++ Assoc.putAll old delta :: after }) :=
  start_exclusive_ok (by rw [patch_object, split, merge_eq_some h first])

/-- A patch changes the first record that matches and no other; it has the fields of `delta` then,
and those that it had beside them. If nothing matches, nothing changes. If the patch is in agreement
with what the record was found by, it is found by that again, and to patch it once more changes
nothing. -/
theorem patch_changes_first (w : World σ) (n : Nat) (entity : String) (ids delta : Record) :
    let c := w.cache n entity
    let patched := (patchIn n entity (.object ids) (.object delta)).start w
    ((∀ r ∈ c.entries, ¬Matches ids r) ∧ patched.1 = .ok none ∧ patched.2.cache n entity = c ∨
      ∃ before old after new, c.entries = before ++ old :: after ∧
        (∀ r ∈ before, ¬Matches ids r) ∧ Matches ids old ∧ patched.1 = .ok (some new) ∧
        patched.2.cache n entity = { c with entries := before ++ new :: after } ∧
        ((delta.map Prod.fst).Nodup → ∀ key,
          Assoc.get? new key = (Assoc.get? delta key).or (Assoc.get? old key))) ∧
      ((∀ e ∈ ids, ∀ v, (e.1, v) ∈ delta → v.same e.2 = true) →
        ((get n entity (.object ids)).start patched.2).1 = patched.1 ∧
          (patchIn n entity (.object ids) (.object delta)).start patched.2 = patched) := by
  intro c patched
  rcases matching_cases ids c.entries with unmatched | ⟨before, old, after, split, others, first⟩
  · have unchanged : patched = (.ok none, w.putCache n entity c) := start_patchIn_none unmatched
    have same : patched.2.cache n entity = c := by rw [unchanged, World.cache_putCache]
    refine ⟨.inl ⟨unmatched, congrArg Prod.fst unchanged, same⟩, fun _ => ⟨?_, ?_⟩⟩
    · rw [start_get, same, unchanged, List.find?_eq_none.mpr (by simpa using unmatched)]
    · rw [start_patchIn_none (same ▸ unmatched), same, unchanged, World.putCache_putCache]
  · let new := Assoc.putAll old delta
    have change : patched = (.ok (some new), w.putCache n entity
      { c with entries := before ++ new :: after }) := start_patchIn_some split others first
    have cache : patched.2.cache n entity = { c with entries := before ++ new :: after } := by
      rw [change, World.cache_putCache]
    refine ⟨.inr ⟨before, old, after, new, split, others, first, congrArg Prod.fst change, cache,
      fun distinct key => Assoc.get?_putAll_of_nodup distinct old key⟩, fun agreed => ?_⟩
    have entries : (patched.2.cache n entity).entries = before ++ new :: after := by rw [cache]
    have found : Matches ids new := first.putAll agreed
    constructor
    · have unfound : before.find? (fun r => Matches ids r) = none :=
        List.find?_eq_none.mpr (by simpa using others)
      rw [start_get, entries, List.find?_append, unfound, Option.none_or,
        List.find?_cons_of_pos (by simpa using found), change]
    · have again : Assoc.putAll new delta = new := Assoc.putAll_putAll old delta
      rw [start_patchIn_some entries others found, again, cache, change, World.putCache_putCache]

/-- The first two records do not match, one for a field that it has and one for a field that it
lacks. The patch names a field that the record is found by, and says the same of it. -/
theorem patch_changes_first_alike :
    let c : Cache := { entries := [[("id", .ofInt 1), ("gone", .bool true)],
      [("name", .string "a")], [("id", .ofInt 1), ("name", .string "a")], [("id", .ofInt 1)]] }
    let w : World Script := { wire := { link := {} } }
    let w := w.putCache 1 "user" c
    let ids : Record := [("id", .ofInt 1), ("gone", .null)]
    let delta : Record := [("age", .ofInt 3), ("id", .ofInt 1), ("name", .string "b")]
    let new : Record := [("id", .ofInt 1), ("name", .string "b"), ("age", .ofInt 3)]
    let patched := (patchIn 1 "user" (.object ids) (.object delta)).start w
    (∀ e ∈ ids, ∀ v, (e.1, v) ∈ delta → v.same e.2 = true) ∧ (delta.map Prod.fst).Nodup ∧
      patched.1 = .ok (some new) ∧
      (patched.2.cache 1 "user").entries = [[("id", .ofInt 1), ("gone", .bool true)],
        [("name", .string "a")], new, [("id", .ofInt 1)]] ∧
      ((get 1 "user" (.object ids)).start patched.2).1 = .ok (some new) ∧
      (patchIn 1 "user" (.object ids) (.object delta)).start patched.2 = patched := by
  intro c w₀ w ids delta new patched
  have agreed : ∀ e ∈ ids, ∀ v, (e.1, v) ∈ delta → v.same e.2 = true := by
    intro e he v hv
    simp only [ids, delta, List.mem_cons, List.not_mem_nil, or_false, Prod.mk.injEq] at he hv
    rcases he with rfl | rfl
    · rcases hv with ⟨other, -⟩ | ⟨-, rfl⟩ | ⟨other, -⟩
      · contradiction
      · decide
      · contradiction
    · simp at hv
  obtain ⟨-, agree⟩ := patch_changes_first w 1 "user" ids delta
  obtain ⟨found, again⟩ := agree agreed
  exact ⟨agreed, by decide, rfl, rfl, found, again⟩

end

end Cache
end DataAccess
