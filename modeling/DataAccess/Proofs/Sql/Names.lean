import DataAccess.Proofs.Sql.Placeholders
import DataAccess.Proofs.Text.Kinds
import DataAccess.Sql.Reference

/-!
Signs in the spellings of names. A sign that a name does not have is not put into it by a
convention, and a reference has a dollar sign only if its key has one.
-/
namespace DataAccess
namespace Text

theorem not_mem_of_unmarked {x c : Char} {s rest : List Char} (h : x ∉ s)
    (hu : unmarked c s = some rest) : x ∉ rest := by
  rw [unmarked_eq_some hu] at h
  exact fun hx => h (List.mem_cons_of_mem c hx)

end Text

open Text

namespace Naming

/-- The star is spelled alike in each convention. -/
theorem segment_eq (n : Naming) (s : List Char) : n.segment s = n.db.convertChars s := by
  unfold segment
  split_ifs with star
  · rw [star]
    cases n.db <;> decide
  · rfl

/-- An index is a number with an optional sign. -/
theorem isIndex_cases {s : List Char} (h : isIndex s = true) :
    ∃ sign ∈ [[], ['-'], ['+']], ∃ digits, s = sign ++ digits ∧ digits ≠ [] ∧
      ∀ c ∈ digits, c.isDigit = true := by
  have number {negative : Bool} {digits : List Char} {value : Nat}
      (h : (!digits.isEmpty && digits.all Char.isDigit &&
        (if negative then value ≤ pow2 63 else value < pow2 63)) = true) :
      digits ≠ [] ∧ ∀ c ∈ digits, c.isDigit = true := by
    simp only [Bool.and_eq_true, Bool.not_eq_true', List.isEmpty_eq_false_iff,
      List.all_eq_true] at h
    exact h.1
  unfold isIndex at h
  dsimp only at h
  split at h
  next digits => exact ⟨['-'], by decide, digits, rfl, number h⟩
  next digits => exact ⟨['+'], by decide, digits, rfl, number h⟩
  next => exact ⟨[], by decide, s, rfl, number h⟩

section
variable (n : Naming) {x : Char} (sign : isSign x = true) (dash : n.db = .kebab → x ≠ '-')
include sign dash

theorem not_mem_segment {s : List Char} (h : x ∉ s) : x ∉ n.segment s := by
  rw [segment_eq]
  exact not_mem_convertChars sign dash h

theorem not_mem_storageChars (dot : x ≠ '.') {s : List Char} (h : x ∉ s) :
    x ∉ n.storageChars s := by
  unfold storageChars
  split
  next raw hr => exact not_mem_of_unmarked h hr
  next =>
    intro hx
    rcases mem_joined hx with hx | ⟨p, hp, hx⟩
    · exact dot (List.mem_singleton.mp hx)
    · obtain ⟨q, hq, rfl⟩ := List.mem_map.mp hp
      exact n.not_mem_segment sign dash (fun hm => h (mem_of_mem_parts hq hm)) hx

end

theorem plain_segment (n : Naming) {s : List Char} (h : Plain s) : Plain (n.segment s) :=
  n.not_mem_segment (by decide) (fun _ => by decide) h

theorem plain_storageChars (n : Naming) {s : List Char} (h : Plain s) :
    Plain (n.storageChars s) :=
  n.not_mem_storageChars (by decide) (fun _ => by decide) (by decide) h

theorem plain_storageName (n : Naming) {s : String} (h : Plain s.toList) :
    Plain (n.storageName s).toList := by
  rw [storageName, String.toList_ofList]
  exact n.plain_storageChars h

theorem plain_headChars (n : Naming) {s : List Char} (h : Plain s) : Plain (n.headChars s) := by
  unfold headChars
  split_ifs
  · exact n.plain_storageChars h
  · exact plain_append (s := '"' :: n.segment s)
      (by simpa [Plain] using n.plain_segment h) (by decide)

theorem not_mem_literal {x : Char} (quote : x ≠ '\x27') {s : List Char} (h : x ∉ s) :
    x ∉ literal s := by
  have doubled : x ∉ s.flatMap fun c => if c = '\x27' then ['\x27', '\x27'] else [c] := by
    intro hx
    obtain ⟨c, hc, hx⟩ := List.mem_flatMap.mp hx
    split_ifs at hx
    · exact quote (by simpa using hx)
    · exact h (List.mem_singleton.mp hx ▸ hc)
  simpa [literal, quote] using doubled

def arrowSigns : List Char := ['-', '>', '\x27']

theorem not_mem_arrowChars (n : Naming) {x : Char} (sign : isSign x = true)
    (other : x ∉ arrowSigns) {s : List Char} (h : x ∉ s) : x ∉ n.arrowChars s := by
  obtain ⟨dash, head, quote⟩ : x ≠ '-' ∧ x ≠ '>' ∧ x ≠ '\x27' := by simpa [arrowSigns] using other
  have key {s : List Char} (h : x ∉ s) : x ∉ n.keyChars s := by
    unfold keyChars
    split_ifs
    · exact h
    · exact not_mem_literal quote (not_mem_convertChars sign (fun _ => dash) h)
  unfold arrowChars
  split
  next rest hr => simpa [dash, head] using key (not_mem_of_unmarked h hr)
  next => simpa [dash, head] using key h

theorem plain_pathChars (n : Naming) {ps : List (List Char)} (h : ∀ p ∈ ps, Plain p) :
    Plain (n.pathChars ps) := by
  cases ps with
  | nil => exact List.not_mem_nil
  | cons head steps =>
    refine plain_append (n.plain_headChars (h head List.mem_cons_self)) ?_
    intro hd
    obtain ⟨p, hp, hd⟩ := List.mem_flatMap.mp hd
    exact n.not_mem_arrowChars (by decide) (by decide) (h p (List.mem_cons_of_mem head hp)) hd

theorem plain_columnChars (n : Naming) {s : List Char} (h : Plain s) :
    Plain (n.columnChars s) := by
  unfold columnChars
  split
  next raw _ hr => exact not_mem_of_unmarked h hr
  next bare hb => exact n.plain_storageChars (not_mem_of_unmarked h hb)
  next =>
    split_ifs
    · exact n.plain_pathChars fun p hp hd => h (mem_of_mem_arrowParts hp hd)
    · exact n.plain_headChars h

theorem plain_column (n : Naming) {s : String} (h : Plain s.toList) :
    Plain (n.column s).toList := by
  rw [column, String.toList_ofList]
  exact n.plain_columnChars h

theorem plain_sortKey (n : Naming) {s : String} (h : Plain s.toList) :
    Plain (n.sortKey s).toList := by
  unfold sortKey
  split
  next key _ hk =>
    simp only [String.toList_append, String.toList_ofList]
    exact plain_append (n.plain_columnChars (not_mem_of_unmarked h hk)) (by decide)
  next key hk =>
    simp only [String.toList_append, String.toList_ofList]
    exact plain_append (n.plain_columnChars (not_mem_of_unmarked h hk)) (by decide)
  next => exact n.plain_column h

theorem plain_selectKey (n : Naming) {s : String} (h : Plain s.toList) :
    Plain (n.selectKey s).toList := by
  unfold selectKey
  split
  next raw hr =>
    rw [String.toList_ofList]
    exact not_mem_of_unmarked h hr
  next =>
    split
    next name label hc =>
      have hs := cutFirst_eq_some hc
      have hname : Plain name := fun hd => h (hs ▸ by simp [hd])
      have hlabel : Plain label := fun hd => h (hs ▸ by simp [hd])
      simp only [String.toList_append, String.toList_ofList]
      exact plain_append (plain_append (n.plain_storageChars hname) (by decide))
        (n.plain_storageChars hlabel)
    next => exact n.plain_storageName h

theorem plain_joinKey (n : Naming) {table key : String} (ht : Plain table.toList)
    (h : Plain key.toList) : Plain (n.joinKey table key).toList := by
  unfold joinKey
  split
  next raw hr =>
    rw [String.toList_ofList]
    exact not_mem_of_unmarked h hr
  next =>
    split_ifs
    · exact n.plain_storageName h
    · simp only [String.toList_append, String.toList_ofList]
      exact plain_append (plain_append ht (by decide)) (n.plain_segment h)

end Naming
end DataAccess
