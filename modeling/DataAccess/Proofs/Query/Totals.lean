import DataAccess.Proofs.Query.Reading

/-!
The total of a page. The rows of a window show the size of the whole result; where the window shows
no row, the rows of the query are counted in a statement of their own.
-/
namespace DataAccess

def Window.slice (window : Window) (result : List Record) : List Record :=
  (result.drop window.offset.toNat).take window.limit.toNat

/-- Rows for the part of a result that a window shows, each with the size of the whole result. -/
structure Window.Tells (window : Window) (naming : Naming) (result rows : List Record) : Prop where
  length : rows.length = (window.slice result).length
  shown : ∀ row ∈ rows, naming.Shows row "total" (.ofInt result.length)

/-- How a count is answered: with the size of the whole result, or for a query with groups with
the size of each group. -/
def Spec.tally (spec : Spec) (result : List Record) (sizes : List Nat) : List Record :=
  if spec.groupBy = [] then [[("count", .ofInt result.length)]]
  else sizes.map fun size => [("count", .ofInt size)]

theorem Spec.Writable.counted {spec : Spec} {config : Config} (h : spec.Writable config)
    (selects : spec.command = .select) (key : Option String) :
    (spec.counted config.naming key).Writable config := h.aggregate selects _ _

theorem Json.signed?_natCast {k : Nat} (h : k < pow2 63) :
    (Json.ofInt k).signed? = some (k : Int) := by
  have lower : -(pow2 63 : Int) ≤ k := by omega
  have upper : (k : Int) < (pow2 63 : Int) := by exact_mod_cast h
  exact signed?_ofInt lower upper

namespace Draft
variable {σ : Type} [Link σ] {good : Option Address → σ → Prop}
  {answers : String → List Json → List Record → Prop} {n : Nat} {w : World σ} {d : Draft}
  {spec : Spec}

/-- A query with groups is counted by the first of them. -/
theorem counting_tally {s : Session} (small : s.config.naming.app.capitalizes = false)
    {result : List Record} (word : result.length < pow2 63) {sizes : List Nat}
    (words : ∀ size ∈ sizes, size < pow2 63) :
    counting s (spec.tally result sizes) =
      if spec.groupBy = [] then (result.length : Int) else (sizes.headD 0 : Nat) := by
  unfold Spec.tally
  split
  · exact counting_shown small (Json.signed?_natCast word) (s.config.naming.shows_singleton _ _) []
  · cases sizes with
    | nil => rfl
    | cons size sizes =>
      have fits : size < pow2 63 := words size List.mem_cons_self
      exact counting_shown small (Json.signed?_natCast fits)
        (s.config.naming.shows_singleton _ _) _

/-- A page without rows has what the count is answered with as its total. -/
theorem page_tallied (h : Link.Serving good answers) (hw : w.Ready good n)
    (selects : spec.command = .select)
    (small : (w.session n).config.naming.app.capitalizes = false)
    (writable : spec.Writable (w.session n).config) {result : List Record} {sizes : List Nat}
    (word : result.length < pow2 63) (words : ∀ size ∈ sizes, size < pow2 63)
    (count : (spec.counted (w.session n).config.naming none).Yields (w.session n).config answers
      (· = spec.tally result sizes)) :
    ∃ v, (page n spec []).start w = (.ok ⟨if spec.groupBy = [] then (result.length : Int)
      else (sizes.headD 0 : Nat), []⟩, v) := by
  obtain ⟨counts, v, runs, hv⟩ := page_counted h hw spec (rfl : total? [] = none)
    (writable.counted selects none)
  have tallied : counts = spec.tally result sizes := runs.kind count
  rw [tallied, counting_tally small word words] at hv
  exact ⟨v, hv⟩

/-- A page has the size of the whole result as its total, if the window shows a row, if there are no
groups, or if there is nothing at all. Past the end of a result with groups the total is the size of
the first group, and not the number of groups. -/
theorem page_total (h : Link.Serving good answers) (hw : w.Ready good n)
    (hd : d.checked = .ok spec) (selects : spec.command = .select) (plain : spec.first = .all)
    {window : Window} (paged : spec.window = some window)
    (small : (w.session n).config.naming.app.capitalizes = false)
    (writable : spec.Writable (w.session n).config) {result : List Record} {sizes : List Nat}
    (grouped : spec.groupBy ≠ [] → sizes.length = result.length)
    (word : result.length < pow2 63) (words : ∀ size ∈ sizes, size < pow2 63)
    (rows : spec.Yields (w.session n).config answers
      (window.Tells (w.session n).config.naming result))
    (count : (spec.counted (w.session n).config.naming none).Yields (w.session n).config answers
      (· = spec.tally result sizes)) :
    ∃ (total : Int) (items : List Record) (v : World σ),
      (execute n d).start w = (.ok (.page ⟨total, items⟩), v) ∧
      items.length = (window.slice result).length ∧
      (window.slice result ≠ [] ∨ spec.groupBy = [] ∨ result = [] → total = result.length) ∧
      (window.slice result = [] → spec.groupBy ≠ [] → total = (sizes.headD 0 : Nat)) := by
  have windowed : spec.window.isSome := by rw [paged]; rfl
  obtain ⟨shown, u, runs, page_of⟩ := execute_runs h hw hd windowed plain writable
  obtain ⟨length, told⟩ := runs.kind rows
  by_cases empty : window.slice result = []
  · obtain rfl : shown = [] := List.eq_nil_of_length_eq_zero (by rw [length, empty]; rfl)
    rw [← (runs.config : (u.session n).config = _)] at small writable count
    obtain ⟨v, hv⟩ := page_tallied h runs.ready selects small writable word words count
    refine ⟨_, [], v, page_of _ _ hv, by rw [empty], ?_, fun _ groups => if_neg groups⟩
    rintro (some_row | plainly | nothing)
    · contradiction
    · exact if_pos plainly
    · split
      · rfl
      next groups =>
        have none_left : sizes.length = 0 := by rw [grouped groups, nothing]; rfl
        rw [List.eq_nil_of_length_eq_zero none_left, nothing]
        rfl
  · have nonempty : shown ≠ [] := by
      rintro rfl
      exact empty (List.eq_nil_of_length_eq_zero length.symm)
    have hv := start_page_shown n spec u small nonempty (Json.signed?_natCast word) told
    refine ⟨result.length, _, u, page_of _ _ hv, by rw [List.length_map, length], fun _ => rfl, ?_⟩
    intro slice
    contradiction

/-- The second of two groups of users is shown, and that there are two. -/
theorem page_total_groups :
    let link : Script := { responses :=
      [("AS total", [[("role", .string "guest"), ("total", .ofInt 2)]]),
        ("AS count", [[("count", .ofInt 3)], [("count", .ofInt 1)]])] }
    let w : World Script :=
      { wire := { link }, sessions := [(1, { number := 1, database := ⟨0, none⟩ })] }
    let roles := Draft.ofEdits "users" [.select ["role"], .groupBy ["role"], .paginated ⟨1, 5⟩]
    ∃ items v, (execute 1 roles).start w = (.ok (.page ⟨2, items⟩), v) ∧ items.length = 1 := by
  intro link w roles
  let spec : Spec :=
    { table := "users", select := ["role"], groupBy := ["role"], window := some ⟨1, 5⟩ }
  let config : Config := (w.session 1).config
  let result : List Record := [[("role", .string "admin")], [("role", .string "guest")]]
  have ready : w.Ready (fun address l => address = none ∧ l = link) 1 :=
    ⟨⟨by decide, by decide⟩, rfl, rfl⟩
  have pages (schema : Schema) : compile spec config schema = .ok
      ⟨"SELECT role, COUNT(*) OVER() AS total FROM users GROUP BY \"role\" LIMIT 5 OFFSET 1", []⟩ :=
    (rfl : _ = compile spec config []).trans (eq_ok_of_toOption (by decide +kernel))
  have counts (schema : Schema) : compile (spec.counted config.naming none) config schema =
      .ok ⟨"SELECT COUNT(*)::bigint AS count FROM users GROUP BY \"role\"", []⟩ :=
    (rfl : _ = compile (spec.counted config.naming none) config []).trans
      (eq_ok_of_toOption (by decide +kernel))
  have tells : spec.Yields config (fun sql _ rows => rows = link.rows sql)
      (Window.Tells ⟨1, 5⟩ config.naming result) := by
    rintro schema c rows hc rfl
    obtain rfl := Except.ok.inj ((pages schema).symm.trans hc)
    have shown : link.rows ("SELECT role, COUNT(*) OVER() AS total FROM users " ++
        "GROUP BY \"role\" LIMIT 5 OFFSET 1") =
        [[("role", .string "guest"), ("total", .ofInt 2)]] := by decide +kernel
    refine shown ▸ ⟨rfl, ?_⟩
    rw [List.forall_mem_singleton]
    exact ⟨[("role", .string "guest")], [], rfl, by simp⟩
  have tallies : (spec.counted config.naming none).Yields config
      (fun sql _ rows => rows = link.rows sql) (· = spec.tally result [3, 1]) := by
    rintro schema c rows hc rfl
    obtain rfl := Except.ok.inj ((counts schema).symm.trans hc)
    decide +kernel
  obtain ⟨total, items, v, hv, length, right, -⟩ := page_total
    (Script.serving link rfl rfl) ready (rfl : roles.checked = .ok spec) rfl rfl rfl rfl
    ⟨_, pages []⟩ (by intro _; rfl) (by decide) (by decide) tells tallies
  obtain rfl : total = 2 := right (.inl (by decide))
  exact ⟨items, v, hv, length⟩

/-- Past the end of two groups of three users and of one the total is three. -/
theorem page_total_past_groups :
    let link : Script := { responses :=
      [("COUNT(*)::bigint", [[("count", .ofInt 3)], [("count", .ofInt 1)]])] }
    let config : Config := { introspect := false }
    let w : World Script :=
      { wire := { link }, sessions := [(1, { number := 1, database := ⟨0, none⟩, config })] }
    let window : Window := ⟨10, 5⟩
    let roles := Draft.ofEdits "users" [.select ["role"], .groupBy ["role"], .paginated window]
    let result : List Record := [[("role", .string "admin")], [("role", .string "guest")]]
    let pageSql :=
      "SELECT role, COUNT(*) OVER() AS total FROM users GROUP BY \"role\" LIMIT 5 OFFSET 10"
    let countSql := "SELECT COUNT(*)::bigint AS count FROM users GROUP BY \"role\""
    window.slice result = [] ∧ link.rows pageSql = [] ∧
      link.rows countSql = roles.spec.tally result [3, 1] ∧
      ((execute 1 roles).start w).2.wire.asked = [(pageSql, []), (countSql, [])] ∧
      ((execute 1 roles).start w).1.toOption.map Output.toJson =
        some (.object [("total", .ofInt 3), ("items", .array [])]) ∧
      result.length = 2 := by
  decide +kernel

end Draft
end DataAccess
