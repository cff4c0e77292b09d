import DataAccess.Assoc
import Mathlib.Data.List.Induction
import Mathlib.Data.List.Nodup

/-! Which keys a list has after entries are put into it, and what it has for them. -/
namespace DataAccess.Assoc
variable {κ α : Type} [DecidableEq κ]

theorem keys_put (entries : List (κ × α)) (key : κ) (value : α) :
    key ∈ entries.map Prod.fst ∧ (put entries key value).map Prod.fst = entries.map Prod.fst ∨
      key ∉ entries.map Prod.fst ∧
        (put entries key value).map Prod.fst = entries.map Prod.fst ++ [key] := by
  induction entries with
  | nil => exact .inr ⟨by simp, rfl⟩
  | cons e rest ih =>
    by_cases hk : e.1 = key
    · left
      simp [put, hk]
    · rcases ih with ⟨there, same⟩ | ⟨new, more⟩
      · left
        refine ⟨List.mem_cons_of_mem _ there, ?_⟩
        simp [put, hk, same]
      · right
        simp only [put, hk, if_false, List.map_cons, more, List.cons_append]
        simpa [Ne.symm hk] using new

theorem mem_keys_put {entries : List (κ × α)} {key other : κ} {value : α} :
    key ∈ (put entries other value).map Prod.fst ↔ key = other ∨ key ∈ entries.map Prod.fst := by
  rcases keys_put entries other value with ⟨there, same⟩ | ⟨-, more⟩
  · rw [same]
    exact ⟨.inr, fun h => h.elim (fun h => h ▸ there) id⟩
  · rw [more, List.mem_append, List.mem_singleton, or_comm]

theorem nodup_keys_put {entries : List (κ × α)} (h : (entries.map Prod.fst).Nodup) (key : κ)
    (value : α) : ((put entries key value).map Prod.fst).Nodup := by
  rcases keys_put entries key value with ⟨-, same⟩ | ⟨new, more⟩
  · rwa [same]
  · rw [more]
    exact List.nodup_append_comm.mp (List.nodup_cons.mpr ⟨new, h⟩)

theorem putAll_cons (entries more : List (κ × α)) (e : κ × α) :
    putAll entries (e :: more) = putAll (put entries e.1 e.2) more := rfl

theorem putAll_concat (entries more : List (κ × α)) (e : κ × α) :
    putAll entries (more ++ [e]) = put (putAll entries more) e.1 e.2 := by
  simp [putAll, List.foldl_append]

theorem mem_keys_putAll {entries more : List (κ × α)} {key : κ} :
    key ∈ (putAll entries more).map Prod.fst ↔
      key ∈ more.map Prod.fst ∨ key ∈ entries.map Prod.fst := by
  induction more generalizing entries with
  | nil => simp [putAll]
  | cons e more ih =>
    rw [putAll_cons, ih, mem_keys_put, List.map_cons, List.mem_cons, or_left_comm, or_assoc]

theorem putAll_ne_nil {entries : List (κ × α)} (h : entries ≠ []) (more : List (κ × α)) :
    putAll entries more ≠ [] := by
  obtain ⟨e, he⟩ := List.exists_mem_of_ne_nil entries h
  have kept : e.1 ∈ (putAll entries more).map Prod.fst :=
    mem_keys_putAll.mpr (.inr (List.mem_map_of_mem he))
  intro empty
  simp [empty] at kept

theorem put_comm_of_mem {entries : List (κ × α)} {key other : κ} (apart : key ≠ other)
    (there : other ∈ entries.map Prod.fst) (value old : α) :
    put (put entries key value) other old = put (put entries other old) key value := by
  induction entries with
  | nil => simp at there
  | cons e rest ih =>
    by_cases hk : e.1 = key
    · have ho : e.1 ≠ other := hk ▸ apart
      simp [put, hk, apart]
    · by_cases ho : e.1 = other
      · simp [put, ho, apart.symm]
      · have later : other ∈ rest.map Prod.fst := by simpa [Ne.symm ho] using there
        simp [put, hk, ho, ih later]

/-- What is put in the end makes no difference before, if nothing new comes in between. -/
theorem put_putAll_put {entries more : List (κ × α)}
    (there : ∀ e ∈ more, e.1 ∈ entries.map Prod.fst) (key : κ) (value : α) :
    put (putAll (put entries key value) more) key value = put (putAll entries more) key value := by
  induction more generalizing entries with
  | nil => exact put_put entries key value value
  | cons e more ih =>
    obtain ⟨here, others⟩ := List.forall_mem_cons.mp there
    have kept : ∀ x ∈ more, x.1 ∈ (put entries e.1 e.2).map Prod.fst :=
      fun x hx => mem_keys_put.mpr (.inr (others x hx))
    rw [putAll_cons, putAll_cons]
    by_cases hk : key = e.1
    · rw [← hk, put_put]
    · rw [put_comm_of_mem hk here, ih kept]

/-- To put the same entries once more changes nothing. -/
theorem putAll_putAll (entries more : List (κ × α)) :
    putAll (putAll entries more) more = putAll entries more := by
  -- from the end, since what is put last can be left out where it is put first
  induction more using List.reverseRecOn with
  | nil => rfl
  | append_singleton more e ih =>
    have there : ∀ x ∈ more, x.1 ∈ (putAll entries more).map Prod.fst :=
      fun x hx => mem_keys_putAll.mpr (.inl (List.mem_map_of_mem hx))
    rw [putAll_concat, putAll_concat, put_putAll_put there, ih]

/-- A key has a value that is put for it, or its old one. -/
theorem get?_putAll_cases (entries more : List (κ × α)) (key : κ) :
    (key ∉ more.map Prod.fst ∧ get? (putAll entries more) key = get? entries key) ∨
      ∃ value, (key, value) ∈ more ∧ get? (putAll entries more) key = some value := by
  -- from the end, since the last entry with the key counts
  induction more using List.reverseRecOn with
  | nil => exact .inl ⟨List.not_mem_nil, rfl⟩
  | append_singleton more e ih =>
    rw [putAll_concat, get?_put]
    by_cases hk : e.1 = key
    · exact .inr ⟨e.2, by simp [← hk], if_pos hk⟩
    · rw [if_neg hk]
      rcases ih with ⟨absent, same⟩ | ⟨value, mem, put⟩
      · exact .inl ⟨by simpa [Ne.symm hk] using absent, same⟩
      · exact .inr ⟨value, List.mem_append_left _ mem, put⟩

theorem get?_putAll_of_ne {entries more : List (κ × α)} {key : κ} (h : ∀ e ∈ more, e.1 ≠ key) :
    get? (putAll entries more) key = get? entries key := by
  rcases get?_putAll_cases entries more key with ⟨-, same⟩ | ⟨value, mem, -⟩
  · exact same
  · exact absurd rfl (h _ mem)

/-- Entries that agree with `f` are known as `f` has them, in whatever order they are put. -/
theorem get?_putAll_of_agrees {entries more : List (κ × α)} {f : κ → Option α}
    (h : ∀ e ∈ more, f e.1 = some e.2) (key : κ) :
    get? (putAll entries more) key =
      if key ∈ more.map Prod.fst then f key else get? entries key := by
  rcases get?_putAll_cases entries more key with ⟨absent, same⟩ | ⟨value, mem, put⟩
  · rw [same, if_neg absent]
  · rw [put, if_pos (List.mem_map_of_mem mem), h _ mem]

theorem get?_eq_none_iff {entries : List (κ × α)} {key : κ} :
    get? entries key = none ↔ key ∉ entries.map Prod.fst := by
  induction entries with
  | nil => simp [get?]
  | cons e rest ih =>
    by_cases hk : e.1 = key
    · simp [get?, hk]
    · simp [get?, hk, Ne.symm hk, ih]

theorem get?_of_mem {entries : List (κ × α)} (distinct : (entries.map Prod.fst).Nodup)
    {key : κ} {value : α} (h : (key, value) ∈ entries) : get? entries key = some value := by
  induction entries with
  | nil => simp at h
  | cons e rest ih =>
    rw [List.map_cons, List.nodup_cons] at distinct
    rcases List.mem_cons.mp h with rfl | h
    · simp [get?]
    · have other : e.1 ≠ key := by
        rintro rfl
        exact distinct.1 (List.mem_map.mpr ⟨_, h, rfl⟩)
      simp only [get?, if_neg other]
      exact ih distinct.2 h

/-- Later fields take the place of earlier ones. -/
theorem get?_putAll_of_nodup {more : List (κ × α)} (distinct : (more.map Prod.fst).Nodup)
    (entries : List (κ × α)) (key : κ) :
    get? (putAll entries more) key = (get? more key).or (get? entries key) := by
  rcases get?_putAll_cases entries more key with ⟨absent, same⟩ | ⟨value, mem, put⟩
  · rw [same, get?_eq_none_iff.mpr absent, Option.none_or]
  · rw [put, get?_of_mem distinct mem, Option.some_or]

/-- Of the entries with a key the last one counts. -/
theorem get?_ofList_last {before after : List (κ × α)} {key : κ} {value : α}
    (h : ∀ e ∈ after, e.1 ≠ key) :
    get? (ofList (before ++ (key, value) :: after)) key = some value := by
  have parted : ofList (before ++ (key, value) :: after) =
      putAll (put (ofList before) key value) after := by
    simp only [ofList, putAll, List.foldl_append, List.foldl_cons]
  rw [parted, get?_putAll_of_ne h, get?_put, if_pos rfl]

/-- What is found is the value of the last entry with the key. -/
theorem get?_ofList_eq_some {entries : List (κ × α)} {key : κ} {value : α} :
    get? (ofList entries) key = some value ↔
      ∃ before after, entries = before ++ (key, value) :: after ∧ ∀ e ∈ after, e.1 ≠ key := by
  refine ⟨fun found => ?_, fun ⟨before, after, parted, last⟩ => parted ▸ get?_ofList_last last⟩
  induction entries using List.reverseRecOn with
  | nil => exact nomatch found
  | append_singleton entries e ih =>
    rw [ofList, putAll_concat, get?_put] at found
    split_ifs at found with hk
    · cases found
      exact ⟨entries, [], by rw [← hk], by simp⟩
    · obtain ⟨before, after, rfl, last⟩ := ih found
      refine ⟨before, after ++ [e], by simp, fun other mem => ?_⟩
      rcases List.mem_append.mp mem with mem | mem
      · exact last other mem
      · exact List.mem_singleton.mp mem ▸ hk

theorem nodup_keys_ofList (entries : List (κ × α)) : ((ofList entries).map Prod.fst).Nodup := by
  -- from the end, since the last entry is put last
  induction entries using List.reverseRecOn with
  | nil => exact List.nodup_nil
  | append_singleton entries e ih =>
    rw [ofList, putAll_concat]
    exact nodup_keys_put ih e.1 e.2

theorem swapRemove_of_not_mem {entries : List (κ × α)} {key : κ}
    (h : key ∉ entries.map Prod.fst) : swapRemove entries key = entries := by
  induction entries with
  | nil => rfl
  | cons e rest ih =>
    rw [List.map_cons, List.mem_cons, not_or] at h
    rw [swapRemove, if_neg (Ne.symm h.1), ih h.2]

theorem erase_of_not_mem {entries : List (κ × α)} {key : κ}
    (h : key ∉ entries.map Prod.fst) : erase entries key = entries := by
  induction entries with
  | nil => rfl
  | cons e rest ih =>
    rw [List.map_cons, List.mem_cons, not_or] at h
    rw [erase, if_neg (Ne.symm h.1), ih h.2]

/-- The entries before the one that is removed stay, and of those behind it the last one comes
before the others. -/
theorem swapRemove_append {before after : List (κ × α)} {key : κ} {value : α}
    (h : key ∉ before.map Prod.fst) :
    swapRemove (before ++ (key, value) :: after) key =
      before ++ (after.getLast?.toList ++ after.dropLast) := by
  induction before with
  | nil => exact if_pos rfl
  | cons e before ih =>
    rw [List.map_cons, List.mem_cons, not_or] at h
    rw [List.cons_append, swapRemove, if_neg (Ne.symm h.1), ih h.2]
    rfl

example : swapRemove [("id", 1), ("total", 2), ("name", 3), ("placedOn", 4)] "total" =
    [("id", 1), ("placedOn", 4), ("name", 3)] := by decide

/-- All entries but the one with the key remain. -/
theorem swapRemove_perm {entries : List (κ × α)} (distinct : (entries.map Prod.fst).Nodup)
    (key : κ) : (swapRemove entries key).Perm (erase entries key) := by
  induction entries with
  | nil => exact .refl _
  | cons e rest ih =>
    rw [List.map_cons, List.nodup_cons] at distinct
    by_cases hk : e.1 = key
    · rw [swapRemove, if_pos hk, erase, if_pos hk, erase_of_not_mem (hk ▸ distinct.1)]
      cases rest using List.reverseRecOn with
      | nil => exact .refl _
      | append_singleton others last =>
        rw [List.getLast?_concat, List.dropLast_concat]
        exact (List.perm_append_comm : ([last] ++ others).Perm _)
    · rw [swapRemove, if_neg hk, erase, if_neg hk]
      exact (ih distinct.2).cons e

end DataAccess.Assoc
