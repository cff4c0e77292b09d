import DataAccess.Proofs.Assoc
import DataAccess.Proofs.Query.Running
import DataAccess.Proofs.Text.Capitals

/-!
Results that a session reads itself: counts, sums and the totals of pages. It looks for them under
the names that its statements give them, while the rows have the names of the application.
-/
namespace DataAccess

/-- A row has this value in a column, and no later column has the name of that one. -/
def Naming.Shows (naming : Naming) (row : Record) (column : String) (value : Json) : Prop :=
  ∃ before after, row = before ++ (column, value) :: after ∧
    ∀ e ∈ after, naming.toApp e.1 ≠ naming.toApp column

theorem Naming.shows_singleton (naming : Naming) (column : String) (value : Json) :
    naming.Shows [(column, value)] column value :=
  ⟨[], [], rfl, by simp⟩

namespace Session
variable {s : Session} {row : Record}

theorem get?_converted {column : String} {value : Json}
    (h : s.config.naming.Shows row column value) (present : value.isNull = false) :
    Assoc.get? (s.converted row) (s.config.naming.toApp column) = some value := by
  obtain ⟨before, after, rfl, last⟩ := h
  let rename : String × Json → String × Json := fun e => (s.config.naming.toApp e.1, e.2)
  have renamed (entries : Record) (kept : entries ⊆ after) :
      ∀ e ∈ entries.map rename, e.1 ≠ s.config.naming.toApp column := by
    intro e he
    obtain ⟨x, hx, rfl⟩ := List.mem_map.mp he
    exact last x (kept hx)
  unfold converted
  split
  · simp only [List.filter_append, List.filter_cons, present, Bool.not_false, if_true,
      List.map_append, List.map_cons]
    exact Assoc.get?_ofList_last (renamed _ List.filter_sublist.subset)
  · simp only [List.map_append, List.map_cons]
    exact Assoc.get?_ofList_last (renamed _ (List.Subset.refl _))

theorem nodup_keys_converted (s : Session) (row : Record) :
    ((s.converted row).map Prod.fst).Nodup := Assoc.nodup_keys_ofList _

theorem get?_converted_of_ne {key : String} (h : ∀ e ∈ row, s.config.naming.toApp e.1 ≠ key) :
    Assoc.get? (s.converted row) key = none := by
  show Assoc.get? (Assoc.putAll [] _) key = Assoc.get? [] key
  refine Assoc.get?_putAll_of_ne fun e he => ?_
  obtain ⟨x, hx, rfl⟩ := List.mem_map.mp he
  refine h x ?_
  split at hx
  · exact (List.mem_filter.mp hx).1
  · exact hx

end Session

namespace Casing
open Text

def readNames : List String := ["count", "sum", "total"]

theorem convert_readName {c : Casing} (h : c.capitalizes = false) {name : String}
    (read : name ∈ readNames) : c.convert name = name := by
  have all : ∀ name ∈ readNames, ∀ c ∈ [snake, camel, kebab], c.convert name = name := by decide
  refine all name read c ?_
  cases c <;> first | decide | contradiction

/-- No name at all is spelled like that where names begin with a capital letter. -/
theorem convert_ne_readName {c : Casing} (h : c.capitalizes = true) (name : String)
    {wanted : String} (read : wanted ∈ readNames) : c.convert name ≠ wanted := by
  have small : ∀ wanted ∈ readNames, ¬ IsCapitalized wanted.toList := by decide
  rintro rfl
  exact small _ read (capitalized_convert h name)

end Casing

namespace Session
variable {s : Session} {row : Record} {wanted : String}

theorem get?_converted_readName (h : s.config.naming.app.capitalizes = false)
    (read : wanted ∈ Casing.readNames) {value : Json}
    (shows : s.config.naming.Shows row wanted value) (present : value.isNull = false) :
    Assoc.get? (s.converted row) wanted = some value := by
  have found := get?_converted shows present
  rwa [Naming.toApp, Casing.convert_readName h read] at found

theorem get?_converted_capitalized (h : s.config.naming.app.capitalizes = true)
    (read : wanted ∈ Casing.readNames) (row : Record) :
    Assoc.get? (s.converted row) wanted = none :=
  get?_converted_of_ne fun e _ => Casing.convert_ne_readName h e.1 read

end Session

theorem Json.signed?_ofInt {i : Int} (lower : -(pow2 63 : Int) ≤ i) (upper : i < (pow2 63 : Int)) :
    (Json.ofInt i).signed? = some i := by
  simp only [ofInt, signed?, lower, upper, decide_true, Bool.and_self, if_true]

theorem Json.signed?_toInt (m : Int64) : (Json.ofInt m.toInt).signed? = some m.toInt :=
  signed?_ofInt m.le_toInt m.toInt_lt

namespace Draft
variable {σ : Type} [Link σ] {good : Option Address → σ → Prop}
  {answers : String → List Json → List Record → Prop} {n : Nat} {u v w : World σ} {d : Draft}
  {spec : Spec}

def counting (s : Session) (rows : List Record) : Int :=
  ((rows.head?.bind fun row => Assoc.get? (s.converted row) "count").bind Json.signed?).getD 0

/-- A single value is looked for in the first row. -/
theorem answer_value (h : Link.Serving good answers) (hw : w.Ready good n) {field : String}
    (wanted : spec.first = .field field) (writable : spec.Writable (w.session n).config) :
    ∃ rows v, w.Runs good answers n spec v rows ∧
      (answer n spec).start w = (.ok (.value (rows.head?.bind fun row =>
        Assoc.get? ((w.session n).converted row) field)), v) := by
  obtain ⟨rows, v, runs, hv⟩ := answer_runs h hw writable
  refine ⟨rows, v, runs, ?_⟩
  rw [hv, wanted, Output.shape, List.head?_map]
  cases rows <;> rfl

theorem field_counted (spec : Spec) (naming : Naming) (key : Option String) :
    (spec.counted naming key).first = .field "count" := rfl

theorem field_summed (spec : Spec) (naming : Naming) (key : String) :
    (spec.summed naming key).first = .field "sum" := rfl

theorem countRows_runs (h : Link.Serving good answers) (hw : w.Ready good n)
    {key : Option String}
    (writable : (spec.counted (w.session n).config.naming key).Writable (w.session n).config) :
    ∃ rows v, w.Runs good answers n (spec.counted (w.session n).config.naming key) v rows ∧
      (countRows n spec key).start w = (.ok (counting (w.session n) rows), v) := by
  obtain ⟨rows, v, runs, hv⟩ := answer_value h hw (field_counted spec _ key) writable
  refine ⟨rows, v, runs, ?_⟩
  rw [countRows, Act.start_bind_ok (Session.start_look n w), Act.start_bind_ok hv]
  rfl

theorem counting_shown {s : Session} (h : s.config.naming.app.capitalizes = false) {row : Record}
    {m : Int} (word : (Json.ofInt m).signed? = some m)
    (shows : s.config.naming.Shows row "count" (.ofInt m)) (rows : List Record) :
    counting s (row :: rows) = m := by
  have found := Session.get?_converted_readName h (by decide) shows rfl
  rw [counting, List.head?_cons, Option.bind_some, found, Option.bind_some, word]
  rfl

theorem counting_capitalized {s : Session} (h : s.config.naming.app.capitalizes = true)
    (rows : List Record) : counting s rows = 0 := by
  cases rows with
  | nil => rfl
  | cons row rows =>
    rw [counting, List.head?_cons, Option.bind_some,
      Session.get?_converted_capitalized h (by decide)]
    rfl

theorem summed_capitalized {s : Session} (h : s.config.naming.app.capitalizes = true)
    (rows : List Record) :
    (rows.head?.bind fun row => Assoc.get? (s.converted row) "sum") = none := by
  cases rows with
  | nil => rfl
  | cons row rows => exact Session.get?_converted_capitalized h (by decide) row

theorem total?_shown {s : Session} (h : s.config.naming.app.capitalizes = false) {row : Record}
    {t : Int} (word : (Json.ofInt t).signed? = some t)
    (shows : s.config.naming.Shows row "total" (.ofInt t)) (rows : List Record) :
    total? ((row :: rows).map s.converted) = some t := by
  have found := Session.get?_converted_readName h (by decide) shows rfl
  show ((Assoc.get? (s.converted row) "total").bind Json.signed?) = some t
  rw [found, Option.bind_some, word]

theorem total?_capitalized {s : Session} (h : s.config.naming.app.capitalizes = true)
    (rows : List Record) : total? (rows.map s.converted) = none := by
  cases rows with
  | nil => rfl
  | cons row rows =>
    show ((Assoc.get? (s.converted row) "total").bind Json.signed?) = none
    rw [Session.get?_converted_capitalized h (by decide), Option.bind_none]

theorem items_capitalized {s : Session} (h : s.config.naming.app.capitalizes = true)
    (rows : List Record) :
    ((rows.map s.converted).map fun row => Assoc.swapRemove row "total") =
      rows.map s.converted := by
  rw [List.map_map]
  exact List.map_congr_left fun row _ =>
    Assoc.swapRemove_of_not_mem
      (Assoc.get?_eq_none_iff.mp (Session.get?_converted_capitalized h (by decide) row))

theorem start_page_of_total {rows : List Record} {t : Int} (ht : total? rows = some t) :
    (page n spec rows).start w =
      (.ok ⟨t, rows.map fun row => Assoc.swapRemove row "total"⟩, w) := by
  unfold page
  rw [ht]
  rfl

/-- Rows that show the size of the whole result make a page with nothing else being sent. -/
theorem start_page_shown (n : Nat) (spec : Spec) (w : World σ) {s : Session}
    (h : s.config.naming.app.capitalizes = false) {rows : List Record} (nonempty : rows ≠ [])
    {t : Int} (word : (Json.ofInt t).signed? = some t)
    (shown : ∀ row ∈ rows, s.config.naming.Shows row "total" (.ofInt t)) :
    (page n spec (rows.map s.converted)).start w =
      (.ok ⟨t, rows.map fun row => Assoc.swapRemove (s.converted row) "total"⟩, w) := by
  obtain ⟨row, others, rfl⟩ := List.exists_cons_of_ne_nil nonempty
  rw [start_page_of_total (total?_shown h word (shown row List.mem_cons_self) others), List.map_map]
  rfl

/-- Rows that do not show the size of the whole result are counted. -/
theorem page_counted (h : Link.Serving good answers) (hw : w.Ready good n) (spec : Spec)
    {rows : List Record} (unknown : total? rows = none)
    (writable : (spec.counted (w.session n).config.naming none).Writable (w.session n).config) :
    ∃ counts v, w.Runs good answers n (spec.counted (w.session n).config.naming none) v counts ∧
      (page n spec rows).start w =
        (.ok ⟨counting (w.session n) counts,
          rows.map fun row => Assoc.swapRemove row "total"⟩, v) := by
  obtain ⟨counts, v, runs, hv⟩ := countRows_runs h hw writable
  refine ⟨counts, v, runs, ?_⟩
  unfold page
  rw [unknown]
  exact Act.start_bind_ok hv

/-- A page is made of the rows of the query. -/
theorem execute_runs (h : Link.Serving good answers) (hw : w.Ready good n)
    (hd : d.checked = .ok spec) (paged : spec.window.isSome) (plain : spec.first = .all)
    (writable : spec.Writable (w.session n).config) :
    ∃ rows u, w.Runs good answers n spec u rows ∧
      ∀ p v, (page n spec (rows.map (w.session n).converted)).start u = (.ok p, v) →
        (execute n d).start w = (.ok (.page p), v) := by
  obtain ⟨rows, u, runs, hu⟩ := answer_runs h hw writable
  refine ⟨rows, u, runs, fun p v hp => ?_⟩
  have whole : spec.unpaged = spec := if_pos plain
  rw [plain] at hu
  obtain ⟨window, hwindow⟩ := Option.isSome_iff_exists.mp paged
  have windowed : spec.window.isNone = false := by rw [hwindow]; rfl
  rw [execute, start_checked_ok hd, whole, Act.start_bind_ok hu, windowed, if_neg (by decide)]
  exact Act.start_bind_ok hp

theorem count_runs (h : Link.Serving good answers) (hw : w.Ready good n)
    (hd : d.checked = .ok spec) {key : Option String}
    (writable : (spec.counted (w.session n).config.naming key).Writable (w.session n).config) :
    ∃ rows v, w.Runs good answers n (spec.counted (w.session n).config.naming key) v rows ∧
      (count n d key).start w = (.ok (counting (w.session n) rows), v) := by
  obtain ⟨rows, v, runs, hv⟩ := countRows_runs h hw writable
  refine ⟨rows, v, runs, ?_⟩
  rw [count, hd]
  exact hv

theorem sum_runs (h : Link.Serving good answers) (hw : w.Ready good n)
    (hd : d.checked = .ok spec) {key : String}
    (writable : (spec.summed (w.session n).config.naming key).Writable (w.session n).config) :
    ∃ rows v, w.Runs good answers n (spec.summed (w.session n).config.naming key) v rows ∧
      (sum n d key).start w = (.ok ((rows.head?.bind fun row =>
        Assoc.get? ((w.session n).converted row) "sum").bind Json.double?), v) := by
  obtain ⟨rows, v, runs, hv⟩ := answer_value h hw (field_summed spec _ key) writable
  refine ⟨rows, v, runs, ?_⟩
  rw [sum, start_checked_ok hd, Act.start_bind_ok (Session.start_look n w), Act.start_bind_ok hv]
  rfl

/-- Counts, sums and totals are found in the rows if the names of the application begin with a
small letter, and the rows of a page keep all fields but the total. Otherwise they never are: the
rows have no column of that name, a count is zero, there is no sum, and a page that shows rows is
counted again, has the total zero and keeps what it has. -/
theorem results_read (h : Link.Serving good answers) (hw : w.Ready good n)
    (hd : d.checked = .ok spec) :
    let session := w.session n
    let config := session.config
    let counted := spec.counted config.naming
    let summed := spec.summed config.naming
    (config.naming.app.capitalizes = false →
      (∀ key (m : Int64), (counted key).Writable config →
        (counted key).Yields config answers (· = [[("count", .ofInt m.toInt)]]) →
        ∃ v, (count n d key).start w = (.ok m.toInt, v)) ∧
      (∀ key (x : Json.Number), (summed key).Writable config →
        (summed key).Yields config answers (· = [[("sum", .number x)]]) →
        ∃ y v, Json.double? (.number x) = some y ∧ (sum n d key).start w = (.ok (some y), v)) ∧
      (∀ t : Int64, spec.window.isSome → spec.first = .all → spec.Writable config →
        spec.Yields config answers (fun rows => rows ≠ [] ∧
          ∀ row ∈ rows, config.naming.Shows row "total" (.ofInt t.toInt)) →
        ∃ rows v, w.Runs good answers n spec v rows ∧ (execute n d).start w =
          (.ok (.page ⟨t.toInt,
            rows.map fun row => Assoc.swapRemove (session.converted row) "total"⟩), v) ∧
          ∀ row, (Assoc.swapRemove (session.converted row) "total").Perm
            (Assoc.erase (session.converted row) "total"))) ∧
    (config.naming.app.capitalizes = true →
      (∀ key, (counted key).Writable config → ∃ v, (count n d key).start w = (.ok 0, v)) ∧
      (∀ key, (summed key).Writable config → ∃ v, (sum n d key).start w = (.ok none, v)) ∧
      (spec.window.isSome → spec.first = .all → spec.Writable config →
        (counted none).Writable config →
        ∃ rows u counts v, w.Runs good answers n spec u rows ∧
          u.Runs good answers n (counted none) v counts ∧
          (execute n d).start w = (.ok (.page ⟨0, rows.map session.converted⟩), v))) := by
  intro session config counted summed
  refine ⟨fun small => ⟨?_, ?_, ?_⟩, fun capital => ⟨?_, ?_, ?_⟩⟩
  · intro key m writable yields
    obtain ⟨rows, v, runs, hv⟩ := count_runs h hw hd writable
    obtain rfl : rows = [[("count", .ofInt m.toInt)]] := runs.kind yields
    rw [counting_shown small (Json.signed?_toInt m) (config.naming.shows_singleton _ _)] at hv
    exact ⟨v, hv⟩
  · intro key x writable yields
    obtain ⟨rows, v, runs, hv⟩ := sum_runs h hw hd writable
    obtain rfl : rows = [[("sum", .number x)]] := runs.kind yields
    have found := Session.get?_converted_readName small (by decide)
      (config.naming.shows_singleton "sum" (.number x)) rfl
    rw [List.head?_cons, Option.bind_some, found] at hv
    cases x with
    | whole i => exact ⟨_, v, rfl, hv⟩
    | float y => exact ⟨y, v, rfl, hv⟩
  · intro t paged plain writable yields
    obtain ⟨rows, v, runs, page_of⟩ := execute_runs h hw hd paged plain writable
    obtain ⟨nonempty, shown⟩ := runs.kind yields
    exact ⟨rows, v, runs, page_of _ _
      (start_page_shown n spec v small nonempty (Json.signed?_toInt t) shown),
      fun row => Assoc.swapRemove_perm (session.nodup_keys_converted row) "total"⟩
  · intro key writable
    obtain ⟨rows, v, -, hv⟩ := count_runs h hw hd writable
    rw [counting_capitalized capital] at hv
    exact ⟨v, hv⟩
  · intro key writable
    obtain ⟨rows, v, -, hv⟩ := sum_runs h hw hd writable
    rw [summed_capitalized capital] at hv
    exact ⟨v, hv⟩
  · intro paged plain writable countable
    obtain ⟨rows, u, runs, page_of⟩ := execute_runs h hw hd paged plain writable
    have same : (u.session n).config = config := runs.config
    obtain ⟨counts, v, again, told⟩ := page_counted h runs.ready spec
      (total?_capitalized capital rows) (by rw [same]; exact countable)
    rw [counting_capitalized (by rw [same]; exact capital), items_capitalized capital] at told
    rw [same] at again
    exact ⟨rows, u, counts, v, runs, again, page_of _ _ told⟩

/-- Three users, counted, summed up and shown page by page. -/
theorem results_read_users :
    let link : Script := { responses :=
      [("AS count", [[("count", .ofInt 3)]]), ("AS sum", [[("sum", .ofInt 6)]]),
        ("AS total", [[("id", .ofInt 1), ("total", .ofInt 3)]])] }
    let w : World Script :=
      { wire := { link }, sessions := [(1, { number := 1, database := ⟨0, none⟩ })] }
    let paged := Draft.ofEdits "users" [.paginated ⟨0, 1⟩]
    (∃ v, (count 1 paged none).start w = (.ok 3, v)) ∧
      (∃ y v, Json.double? (.ofInt 6) = some y ∧ (sum 1 paged "age").start w = (.ok (some y), v)) ∧
      ∃ rows v, (execute 1 paged).start w = (.ok (.page ⟨3, rows⟩), v) := by
  intro link w paged
  let spec : Spec := { table := "users", window := some ⟨0, 1⟩ }
  let config : Config := {}
  have ready : w.Ready (fun address l => address = none ∧ l = link) 1 :=
    ⟨⟨by decide, by decide⟩, rfl, rfl⟩
  have counts (schema : Schema) : compile (spec.counted config.naming none) config schema =
      .ok ⟨"SELECT COUNT(*)::bigint AS count FROM users", []⟩ :=
    (rfl : _ = compile (spec.counted config.naming none) config []).trans
      (eq_ok_of_toOption (by decide +kernel))
  have sums (schema : Schema) : compile (spec.summed config.naming "age") config schema =
      .ok ⟨"SELECT SUM(users.age)::float8 AS sum FROM users", []⟩ :=
    (rfl : _ = compile (spec.summed config.naming "age") config []).trans
      (eq_ok_of_toOption (by decide +kernel))
  have pages (schema : Schema) : compile spec config schema =
      .ok ⟨"SELECT *, COUNT(*) OVER() AS total FROM users LIMIT 1", []⟩ :=
    (rfl : _ = compile spec config []).trans (eq_ok_of_toOption (by decide +kernel))
  obtain ⟨small, -⟩ := results_read (Script.serving link rfl rfl) ready
    (rfl : paged.checked = .ok spec)
  obtain ⟨count_read, sum_read, page_read⟩ := small rfl
  refine ⟨count_read none 3 ⟨_, counts []⟩ ?_, sum_read "age" (.whole 6) ⟨_, sums []⟩ ?_, ?_⟩
  · rintro schema c rows hc rfl
    obtain rfl := Except.ok.inj ((counts schema).symm.trans hc)
    decide +kernel
  · rintro schema c rows hc rfl
    obtain rfl := Except.ok.inj ((sums schema).symm.trans hc)
    decide +kernel
  · have shows : spec.Yields config (fun sql _ rows => rows = link.rows sql) (fun rows =>
        rows ≠ [] ∧ ∀ row ∈ rows, config.naming.Shows row "total" (.ofInt 3)) := by
      rintro schema c rows hc rfl
      obtain rfl := Except.ok.inj ((pages schema).symm.trans hc)
      have shown : link.rows "SELECT *, COUNT(*) OVER() AS total FROM users LIMIT 1" =
          [[("id", .ofInt 1), ("total", .ofInt 3)]] := by decide +kernel
      rw [shown]
      refine ⟨List.cons_ne_nil _ _, ?_⟩
      rw [List.forall_mem_singleton]
      exact ⟨[("id", .ofInt 1)], [], rfl, by simp⟩
    obtain ⟨rows, v, -, hv, -⟩ := page_read 3 rfl rfl ⟨_, pages []⟩ shows
    exact ⟨_, v, hv⟩

/-- Where names begin with a capital letter the same users count for nothing, although the link
answers every statement with what it asks for. -/
theorem results_unread_pascal :
    let link : Script := { responses :=
      [("AS count", [[("count", .ofInt 3)]]), ("AS sum", [[("sum", .ofInt 6)]]),
        ("AS total", [[("id", .ofInt 1), ("total", .ofInt 3)]])] }
    let config : Config := { naming := { app := .pascal }, introspect := false }
    let w : World Script :=
      { wire := { link }, sessions := [(1, { number := 1, database := ⟨0, none⟩, config })] }
    let users := Draft.ofEdits "users" []
    let paged := Draft.ofEdits "users" [.paginated ⟨0, 5⟩]
    ((count 1 users none).start w).1.toOption = some 0 ∧
      ((count 1 users none).start w).2.wire.asked =
        [("SELECT COUNT(*)::bigint AS count FROM users", [])] ∧
      link.rows "SELECT COUNT(*)::bigint AS count FROM users" = [[("count", .ofInt 3)]] ∧
      ((sum 1 users "age").start w).1.toOption = some none ∧
      ((sum 1 users "age").start w).2.wire.asked =
        [("SELECT SUM(users.age)::float8 AS sum FROM users", [])] ∧
      link.rows "SELECT SUM(users.age)::float8 AS sum FROM users" = [[("sum", .ofInt 6)]] ∧
      ((execute 1 paged).start w).1.toOption.map Output.toJson =
        some (.object [("total", .ofInt 0),
          ("items", .array [.object [("Id", .ofInt 1), ("Total", .ofInt 3)]])]) := by
  decide +kernel

end Draft
end DataAccess
