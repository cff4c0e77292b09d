import DataAccess.Casing
import DataAccess.Proofs.Text.Ascii
import Mathlib.Data.List.TakeWhile

/-! Conventions under which no name begins with a small letter of ASCII. -/
namespace DataAccess
namespace Text

/-- A text does not begin with a small letter of ASCII. -/
def IsCapitalized (s : List Char) : Prop := s.head?.any Char.isLower = false

instance (s : List Char) : Decidable (IsCapitalized s) := inferInstanceAs (Decidable (_ = false))

theorem capitalized_nil : IsCapitalized [] := rfl

theorem IsCapitalized.append {s t : List Char} (hs : IsCapitalized s) (ht : IsCapitalized t) :
    IsCapitalized (s ++ t) := by
  cases s with
  | nil => exact ht
  | cons c s => exact hs

/-- What follows a character does not matter. -/
theorem IsCapitalized.extend {s : List Char} (hs : IsCapitalized s) (nonempty : s ≠ [])
    (t : List Char) : IsCapitalized (s ++ t) := by
  cases s with
  | nil => contradiction
  | cons c s => exact hs

theorem IsCapitalized.flatMap {α : Type} {f : α → List Char} (h : ∀ a, IsCapitalized (f a))
    (as : List α) : IsCapitalized (as.flatMap f) := by
  induction as with
  | nil => exact capitalized_nil
  | cons a as ih => exact (h a).append ih

theorem IsCapitalized.joined {separator : List Char} {ps : List (List Char)}
    (hs : IsCapitalized separator) (h : ∀ p ∈ ps, IsCapitalized p) :
    IsCapitalized (joined separator ps) := by
  induction ps with
  | nil => exact capitalized_nil
  | cons p ps ih =>
    obtain ⟨here, others⟩ := List.forall_mem_cons.mp h
    cases ps with
    | nil => exact here
    | cons q ps => exact (here.append hs).append (ih others)

def isSmallCode (n : Nat) : Bool := 97 ≤ n && n ≤ 122

theorem isLower_ofNat {n : Nat} (h : isSmallCode n = false) : (Char.ofNat n).isLower = false := by
  by_cases ascii : n < 128
  · have all : ∀ n < 128, isSmallCode n = false → (Char.ofNat n).isLower = false := by decide
    exact all n ascii h
  · unfold Char.ofNat
    by_cases valid : n.isValidChar
    · rw [dif_pos valid, Bool.eq_false_iff]
      intro small
      have bound : n ≤ 122 := of_decide_eq_true (Bool.and_eq_true_iff.mp small).2
      omega
    · rw [dif_neg valid]
      decide

theorem upperShifts_not_small {s : Shift} (h : s ∈ upperShifts) {n : Nat}
    (covers : Stretch.covers (s.1, s.2.1, s.2.2.1) n = true) :
    isSmallCode (s.2.2.2 + (n - s.1)) = false := by
  have apart : ∀ s ∈ upperShifts, 122 < s.2.2.2 ∨ s.2.2.2 + (s.2.1 - s.1) < 97 := by
    decide +kernel
  simp only [Stretch.covers, Bool.and_eq_true, decide_eq_true_eq] at covers
  have last : n ≤ s.2.1 := covers.1.2
  simp only [isSmallCode, Bool.and_eq_false_iff, decide_eq_false_iff_not]
  rcases apart s h with above | below <;> omega

theorem upper_capitalized (c : Char) : IsCapitalized (upper c) ∧ upper c ≠ [] := by
  by_cases ascii : c.toNat < 128
  · rw [upper_ascii ascii]
    have all : IsCapitalized [c.toUpper] :=
      forall_ascii (P := fun c => IsCapitalized [c.toUpper]) (by decide) ascii
    exact ⟨all, List.cons_ne_nil _ _⟩
  · rw [upper, if_neg ascii]
    unfold recased
    split
    next codes hl =>
      have spelled : ∀ e ∈ upperSpellings, e.2 ≠ [] ∧ e.2.head?.any isSmallCode = false := by
        decide +kernel
      obtain ⟨before, after, he, -⟩ := List.lookup_eq_some_iff.mp hl
      obtain ⟨nonempty, first⟩ := spelled (c.toNat, codes) (by simp [he])
      cases codes with
      | nil => contradiction
      | cons n codes =>
        have capital : (Char.ofNat n).isLower = false := isLower_ofNat first
        exact ⟨capital, List.cons_ne_nil _ _⟩
    next =>
      refine ⟨?_, List.cons_ne_nil _ _⟩
      apply isLower_ofNat
      unfold shifted
      split
      next s hf =>
        have covers : Stretch.covers (s.1, s.2.1, s.2.2.1) c.toNat = true :=
          List.find?_some (p := fun s : Shift => Stretch.covers (s.1, s.2.1, s.2.2.1) c.toNat) hf
        exact upperShifts_not_small (List.mem_of_find?_eq_some hf) covers
      next =>
        simp only [isSmallCode, Bool.and_eq_false_iff, decide_eq_false_iff_not]
        omega

end Text

namespace Casing
open Text

def capitalizes : Casing → Bool
  | pascal | constant => true
  | _ => false

theorem capitalized_capitalize (w : List Char) : IsCapitalized (capitalize w) := by
  cases w with
  | nil => exact capitalized_nil
  | cons c w =>
    obtain ⟨capital, nonempty⟩ := upper_capitalized c
    exact capital.extend nonempty _

theorem capitalized_convert {casing : Casing} (h : casing.capitalizes = true) (name : String) :
    IsCapitalized (casing.convert name).toList := by
  have capital_mark {rest : List Char} : IsCapitalized ('_' :: rest) := rfl
  have marks (s : List Char) : IsCapitalized (s.takeWhile (· = '_')) := by
    cases hs : s.takeWhile (· = '_') with
    | nil => exact capitalized_nil
    | cons c rest =>
      have taken : c ∈ s.takeWhile (· = '_') := hs ▸ List.mem_cons_self
      obtain rfl : c = '_' := by simpa using List.mem_takeWhile_imp taken
      exact capital_mark
  have words (ws : List (List Char)) : IsCapitalized (assemble casing ws) := by
    cases casing with
    | pascal => exact .flatMap capitalized_capitalize ws
    | constant =>
      refine .joined capital_mark fun p hp => ?_
      obtain ⟨w, -, rfl⟩ := List.mem_map.mp hp
      exact .flatMap (fun c => (upper_capitalized c).1) w
    | snake | camel | kebab => contradiction
  rw [convert, String.toList_ofList]
  exact (marks _).append (words _)

end Casing
end DataAccess
