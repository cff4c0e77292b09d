import DataAccess.Page
import Mathlib.Data.UInt

/-!
Pages of a result, by their number. Their windows lie one behind the other as long as the row after
a page can be counted with 64 bits. Past that there are no more windows, whatever the pages are.
-/
namespace DataAccess

variable {α : Type} {rows : List α} {p : Page α} {w next : Window} {page perPage : UInt64}

theorem fitting_eq_some {n : Nat} {x : UInt64} :
    fitting n = some x ↔ n < UInt64.size ∧ x.toNat = n := by
  rw [fitting]
  constructor
  · intro h
    split_ifs at h with fits
    cases h
    exact ⟨fits, UInt64.toNat_ofNat_of_lt fits⟩
  · rintro ⟨fits, rfl⟩
    rw [if_pos fits, UInt64.ofNat_toNat]

theorem exists_toNat_eq {n : Nat} (fits : n < UInt64.size) : ∃ x : UInt64, x.toNat = n :=
  ⟨.ofNat n, UInt64.toNat_ofNat_of_lt fits⟩

theorem fitting_eq_none {n : Nat} : fitting n = none ↔ UInt64.size ≤ n := by
  rw [fitting]
  split_ifs with fits
  · simp [fits]
  · simpa using fits

namespace Window

def Contains (w : Window) (row : Nat) : Prop :=
  w.offset.toNat ≤ row ∧ row < w.offset.toNat + w.limit.toNat

instance (w : Window) (row : Nat) : Decidable (w.Contains row) :=
  inferInstanceAs (Decidable (_ ∧ _))

def shown (w : Window) (rows : List α) : List α := (rows.drop w.offset.toNat).take w.limit.toNat

theorem length_shown (w : Window) (rows : List α) :
    (w.shown rows).length = min w.limit.toNat (rows.length - w.offset.toNat) := by
  rw [shown, List.length_take, List.length_drop]

theorem exists_contains (some_rows : 0 < w.limit.toNat) (n : Nat) :
    (∃ row < n, w.Contains row) ↔ w.offset.toNat < n := by
  constructor
  · rintro ⟨row, inside, from_offset, -⟩
    exact from_offset.trans_lt inside
  · intro inside
    exact ⟨w.offset.toNat, inside, le_rfl, by omega⟩

/-- The second window is of the same size and begins where the first one ends. -/
structure Abuts (w next : Window) : Prop where
  limit : next.limit = w.limit
  offset : next.offset.toNat = w.offset.toNat + w.limit.toNat

def pageSize (perPage : UInt64) : UInt64 := min (max perPage 1) largestPage

theorem pageSize_bounds (perPage : UInt64) :
    1 ≤ (pageSize perPage).toNat ∧ (pageSize perPage).toNat ≤ 100 := by
  have bounded : (pageSize perPage).toNat = min (max perPage.toNat 1) 100 := by
    rw [pageSize, UInt64.toNat_min, UInt64.toNat_max]
    rfl
  omega

/-- A page has the window at its place, if that place fits. -/
theorem ofPage_eq (first : 1 ≤ page) :
    ofPage page perPage = (fitting ((page.toNat - 1) * (pageSize perPage).toNat)).map
      fun offset => ⟨offset, pageSize perPage⟩ := by
  have counted : (max page 1).toNat = page.toNat := by
    rw [UInt64.toNat_max]
    exact max_eq_left (UInt64.le_iff_toNat_le.mp first)
  have place : (max page 1 - 1).toNat = page.toNat - 1 := by
    rw [UInt64.toNat_inj.mp counted, UInt64.toNat_sub_of_le _ _ first]
    rfl
  rw [← place]
  exact Option.map_eq_bind.symm

theorem ofPage_eq_some (first : 1 ≤ page) :
    ofPage page perPage = some w ↔
      (page.toNat - 1) * (pageSize perPage).toNat < UInt64.size ∧
        w.offset.toNat = (page.toNat - 1) * (pageSize perPage).toNat ∧
          w.limit = pageSize perPage := by
  rw [ofPage_eq first, Option.map_eq_some_iff]
  constructor
  · rintro ⟨offset, fits, rfl⟩
    obtain ⟨fits, place⟩ := fitting_eq_some.mp fits
    exact ⟨fits, place, rfl⟩
  · rintro ⟨fits, place, limit⟩
    exact ⟨w.offset, fitting_eq_some.mpr ⟨fits, place⟩, by rw [← limit]⟩

theorem ofPage_eq_none (first : 1 ≤ page) :
    ofPage page perPage = none ↔
      UInt64.size ≤ (page.toNat - 1) * (pageSize perPage).toNat := by
  rw [ofPage_eq first, Option.map_eq_none_iff, fitting_eq_none]

theorem toNat_next (last : page.toNat + 1 < UInt64.size) : (page + 1).toNat = page.toNat + 1 := by
  rw [UInt64.toNat_add]
  exact Nat.mod_eq_of_lt last

theorem one_le_next (last : page.toNat + 1 < UInt64.size) : 1 ≤ page + 1 := by
  rw [UInt64.le_iff_toNat_le, toNat_next last]
  exact Nat.le_add_left 1 page.toNat

/-- The next page begins where a page ends exactly if its place fits. -/
theorem abuts_iff (first : 1 ≤ page) (last : page.toNat + 1 < UInt64.size) :
    (∃ w next, ofPage page perPage = some w ∧ ofPage (page + 1) perPage = some next ∧
      w.Abuts next) ↔ page.toNat * (pageSize perPage).toNat < UInt64.size := by
  have one_more : (page.toNat - 1) * (pageSize perPage).toNat + (pageSize perPage).toNat =
      page.toNat * (pageSize perPage).toNat := by
    have page_pos : 1 ≤ page.toNat := UInt64.le_iff_toNat_le.mp first
    rw [← Nat.succ_mul, Nat.succ_eq_add_one, Nat.sub_add_cancel page_pos]
  simp only [ofPage_eq_some first, ofPage_eq_some (one_le_next last), toNat_next last,
    Nat.add_sub_cancel]
  constructor
  · rintro ⟨w, next, -, ⟨fits, -⟩, -⟩
    exact fits
  · intro fits
    have before : (page.toNat - 1) * (pageSize perPage).toNat < UInt64.size := by omega
    obtain ⟨start, start_eq⟩ := exists_toNat_eq before
    obtain ⟨stop, stop_eq⟩ := exists_toNat_eq fits
    refine ⟨⟨start, pageSize perPage⟩, ⟨stop, pageSize perPage⟩, ⟨before, start_eq, rfl⟩,
      ⟨fits, stop_eq, rfl⟩, rfl, ?_⟩
    rw [start_eq, stop_eq, one_more]

end Window

structure Page.Shows (p : Page α) (w : Window) (rows : List α) : Prop where
  total : p.total = rows.length
  items : p.items = w.shown rows

/-- Whether rows follow a window is seen without an overflow, whatever the window. -/
theorem Page.Shows.hasMore_eq (shows : p.Shows w rows) (small : rows.length < 2 ^ 63) :
    p.hasMore w = some (decide (w.offset.toNat + w.limit.toNat < rows.length)) := by
  have length : p.items.length = min w.limit.toNat (rows.length - w.offset.toNat) := by
    rw [shows.items, w.length_shown]
  -- a window past the rows shows none, and any other ends among them
  have fits : w.offset.toNat + p.items.length < UInt64.size := by
    have bound : w.offset.toNat < 2 ^ 64 := w.offset.toNat_lt
    change _ < 2 ^ 64
    omega
  obtain ⟨stop, stop_eq⟩ := exists_toNat_eq fits
  rw [Page.hasMore, fitting_eq_some.mpr ⟨fits, stop_eq⟩]
  refine congrArg some (decide_eq_decide.mpr ?_)
  rw [stop_eq, shows.total]
  omega

/-- A page tells that there is more exactly if the window next to it shows a row. -/
theorem Page.Shows.hasMore_of_abuts (shows : p.Shows w rows) (small : rows.length < 2 ^ 63)
    (abuts : w.Abuts next) (some_rows : 0 < w.limit.toNat) :
    ∃ more, p.hasMore w = some more ∧
      (more = true ↔ ∃ row < rows.length, next.Contains row) := by
  rw [← abuts.limit] at some_rows
  refine ⟨_, shows.hasMore_eq small, ?_⟩
  rw [decide_eq_true_eq, Window.exists_contains some_rows, abuts.offset]

namespace Window

/-- Pages are of one to a hundred rows and begin with row zero. A page and the next one lie where
their numbers say, one behind the other, exactly if the place of the next one fits into 64 bits;
otherwise the next one is an overflow. No window is at another place than its own, and if both
are there, a page tells that there is more exactly if the next one shows a row. -/
theorem pages_tile (perPage : UInt64) (first : 1 ≤ page) (last : page.toNat + 1 < UInt64.size) :
    let size := (pageSize perPage).toNat
    (1 ≤ size ∧ size ≤ 100) ∧ ofPage 1 perPage = some ⟨0, pageSize perPage⟩ ∧
      (∀ w, ofPage page perPage = some w →
        w.offset.toNat = (page.toNat - 1) * size ∧ w.limit.toNat = size) ∧
      ((∃ w next, ofPage page perPage = some w ∧ ofPage (page + 1) perPage = some next ∧
        w.Abuts next) ↔ page.toNat * size < UInt64.size) ∧
      (ofPage (page + 1) perPage = none ↔ UInt64.size ≤ page.toNat * size) ∧
      ∀ w next, ofPage page perPage = some w → ofPage (page + 1) perPage = some next →
        ∀ {α : Type} (rows : List α) (p : Page α), rows.length < 2 ^ 63 → p.Shows w rows →
          ∃ more, p.hasMore w = some more ∧
            (more = true ↔ ∃ row < rows.length, next.Contains row) := by
  intro size
  have begins : ofPage 1 perPage = some ⟨0, pageSize perPage⟩ :=
    (ofPage_eq_some (UInt64.le_refl 1)).mpr ⟨by simp [UInt64.size], by simp, rfl⟩
  have tiles : (∃ w next, ofPage page perPage = some w ∧ ofPage (page + 1) perPage = some next ∧
      w.Abuts next) ↔ page.toNat * size < UInt64.size := abuts_iff first last
  refine ⟨pageSize_bounds perPage, begins, fun w here => ?_, tiles, ?_, ?_⟩
  · obtain ⟨-, place, limit⟩ := (ofPage_eq_some first).mp here
    exact ⟨place, congrArg UInt64.toNat limit⟩
  · rw [ofPage_eq_none (one_le_next last), toNat_next last, Nat.add_sub_cancel]
  · intro w next here there α rows p small shows
    have fits : page.toNat * size < UInt64.size := by
      have placed := ((ofPage_eq_some (one_le_next last)).mp there).1
      rwa [toNat_next last, Nat.add_sub_cancel] at placed
    obtain ⟨w', next', here', there', abuts⟩ := tiles.mpr fits
    obtain rfl := Option.some.inj (here.symm.trans here')
    obtain rfl := Option.some.inj (there.symm.trans there')
    have some_rows : 0 < w.limit.toNat := by
      rw [((ofPage_eq_some first).mp here).2.2]
      exact (pageSize_bounds perPage).1
    exact shows.hasMore_of_abuts small abuts some_rows

/-- Seven rows by three: the second page is followed by the seventh row. -/
theorem pages_tile_second :
    let w : Window := ⟨3, 3⟩
    let next : Window := ⟨6, 3⟩
    let p : Page Nat := ⟨7, [3, 4, 5]⟩
    (1 : UInt64) ≤ 2 ∧ (2 : UInt64).toNat + 1 < UInt64.size ∧
      ofPage 2 3 = some w ∧ ofPage 3 3 = some next ∧
      (2 : UInt64).toNat * w.limit.toNat < UInt64.size ∧ p.Shows w (List.range 7) ∧
      w.Abuts next ∧ p.hasMore w = some true ∧ ∃ row < 7, next.Contains row := by
  intro w next p
  have first : (1 : UInt64) ≤ 2 := by decide
  have last : (2 : UInt64).toNat + 1 < UInt64.size := by decide
  have here : ofPage 2 3 = some w := by decide
  have there : ofPage 3 3 = some next := by decide
  have fits : (2 : UInt64).toNat * w.limit.toNat < UInt64.size := by decide
  have shows : p.Shows w (List.range 7) := ⟨rfl, rfl⟩
  obtain ⟨-, -, -, tiles, -, more⟩ := pages_tile 3 first last
  obtain ⟨w', next', here', there', abuts⟩ := tiles.mpr fits
  obtain rfl := Option.some.inj (here.symm.trans here')
  obtain rfl := Option.some.inj (there.symm.trans there')
  obtain ⟨told, known, follows⟩ := more w next here there (List.range 7) p (by decide) shows
  have answer : p.hasMore w = some true := by decide
  obtain rfl := Option.some.inj (known.symm.trans answer)
  exact ⟨first, last, here, there, fits, shows, abuts, answer, follows.mp rfl⟩

/-- Of pages of 64 rows, page `2 ^ 58` ends before row `2 ^ 64`, where the next page would begin.
The calculation of its window overflows. -/
theorem page_overflows :
    let page : UInt64 := 288230376151711744
    let w : Window := ⟨18446744073709551552, 64⟩
    1 ≤ page ∧ page.toNat + 1 < UInt64.size ∧ ofPage page 64 = some w ∧
      w.offset.toNat + w.limit.toNat = 18446744073709551616 ∧ ofPage (page + 1) 64 = none ∧
      ¬ ∃ next, ofPage (page + 1) 64 = some next ∧ w.Abuts next := by
  intro page w
  have overflow : ofPage (page + 1) 64 = none := by decide
  refine ⟨by decide, by decide, by decide, by decide, overflow, ?_⟩
  rintro ⟨next, there, -⟩
  exact Option.some_ne_none next (there.symm.trans overflow)

/-- A window continues what stands before it. -/
theorem take_append_shown (w : Window) (rows : List α) :
    rows.take w.offset.toNat ++ w.shown rows = rows.take (w.offset.toNat + w.limit.toNat) :=
  List.take_add.symm

def pageRows (perPage : UInt64) (rows : List α) (n : Nat) : Option (List α) :=
  (ofPage (.ofNat (n + 1)) perPage).map (·.shown rows)

theorem ofPage_ofNat {n : Nat} (fits : (n + 1) * (pageSize perPage).toNat < UInt64.size) :
    ∃ w, ofPage (.ofNat (n + 1)) perPage = some w ∧
      w.offset.toNat = n * (pageSize perPage).toNat ∧ w.limit = pageSize perPage := by
  have size_pos := (pageSize_bounds perPage).1
  have number : (UInt64.ofNat (n + 1)).toNat = n + 1 :=
    UInt64.toNat_ofNat_of_lt ((Nat.le_mul_of_pos_right (n + 1) size_pos).trans_lt fits)
  have first : 1 ≤ UInt64.ofNat (n + 1) := by
    rw [UInt64.le_iff_toNat_le, number]
    exact Nat.le_add_left 1 n
  rw [Nat.succ_mul] at fits
  have before : n * (pageSize perPage).toNat < UInt64.size := by omega
  obtain ⟨start, place⟩ := exists_toNat_eq before
  refine ⟨⟨start, pageSize perPage⟩, (ofPage_eq_some first).mpr ?_, place, rfl⟩
  rw [number, Nat.add_sub_cancel]
  exact ⟨before, place, rfl⟩

/-- The first pages, one after the other, show the first rows. -/
theorem pages_show_first (rows : List α) {n : Nat}
    (fits : n * (pageSize perPage).toNat < UInt64.size) :
    ∃ pages, (List.range n).mapM (pageRows perPage rows) = some pages ∧
      pages.flatten = rows.take (n * (pageSize perPage).toNat) := by
  induction n with
  | zero => exact ⟨[], rfl, by simp⟩
  | succ n ih =>
    obtain ⟨w, here, place, limit⟩ := ofPage_ofNat fits
    rw [Nat.succ_mul] at fits ⊢
    obtain ⟨pages, before, rest⟩ := ih (by omega)
    have last : pageRows perPage rows n = some (w.shown rows) := by rw [pageRows, here]; rfl
    refine ⟨pages ++ [w.shown rows], ?_, ?_⟩
    · rw [List.range_succ, List.mapM_append, before]
      simp [last]
    · rw [List.flatten_append, rest, ← place, ← limit]
      simpa using take_append_shown w rows

/-- The number of pages of a result, where an empty one has an empty page. -/
def pageCount (perPage : UInt64) (total : Nat) : Nat :=
  (total - 1) / (pageSize perPage).toNat + 1

theorem lt_pageCount_iff (perPage : UInt64) (total k : Nat) :
    k + 1 < pageCount perPage total ↔ (k + 1) * (pageSize perPage).toNat < total := by
  have size_pos := (pageSize_bounds perPage).1
  have some_rows : 0 < (k + 1) * (pageSize perPage).toNat := Nat.mul_pos k.succ_pos size_pos
  rw [pageCount, Nat.add_lt_add_iff_right, Nat.lt_iff_add_one_le, Nat.le_div_iff_mul_le size_pos]
  omega

theorem le_pageCount_mul (perPage : UInt64) (total : Nat) :
    total ≤ pageCount perPage total * (pageSize perPage).toNat :=
  Nat.le_of_not_lt ((lt_pageCount_iff perPage total _).not.mp (Nat.lt_irrefl _))

theorem pageCount_mul_le (perPage : UInt64) (total : Nat) :
    pageCount perPage total * (pageSize perPage).toNat ≤ total + 100 := by
  obtain ⟨-, size_le⟩ := pageSize_bounds perPage
  have whole := Nat.div_mul_le_self (total - 1) (pageSize perPage).toNat
  rw [pageCount, Nat.succ_mul]
  omega

/-- Who turns the pages from the first one on for as long as there is more sees each row once. -/
theorem pages_show_all (perPage : UInt64) (rows : List α) (small : rows.length < 2 ^ 63) :
    let n := pageCount perPage rows.length
    (∃ pages, (List.range n).mapM (pageRows perPage rows) = some pages ∧ pages.flatten = rows) ∧
      ∀ k < n, ∃ w, ofPage (.ofNat (k + 1)) perPage = some w ∧
        ∀ p : Page α, p.Shows w rows → p.hasMore w = some (decide (k + 1 < n)) := by
  intro n
  have fits : n * (pageSize perPage).toNat < UInt64.size := by
    have bound : n * (pageSize perPage).toNat ≤ rows.length + 100 :=
      pageCount_mul_le perPage rows.length
    change _ < 2 ^ 64
    omega
  constructor
  · obtain ⟨pages, shown, first⟩ := pages_show_first rows fits
    refine ⟨pages, shown, first.trans ?_⟩
    exact List.take_of_length_le (le_pageCount_mul perPage rows.length)
  · intro k inside
    obtain ⟨w, here, place, limit⟩ := ofPage_ofNat ((Nat.mul_le_mul_right _ inside).trans_lt fits)
    refine ⟨w, here, fun p shows => ?_⟩
    rw [shows.hasMore_eq small, place, limit, ← Nat.succ_mul]
    exact congrArg some (decide_eq_decide.mpr (lt_pageCount_iff perPage rows.length k).symm)

end Window
end DataAccess
