import DataAccess.Casing
import DataAccess.Proofs.Text.Cut
import Mathlib.Data.List.Basic

/-! Letters of ASCII words, whose case can be changed there and back. -/
namespace DataAccess
namespace Text

theorem forall_ascii {P : Char → Prop} (h : ∀ n < 128, P (Char.ofNat n)) {c : Char}
    (hc : c.toNat < 128) : P c := by
  have hn := h c.toNat hc
  rwa [Char.ofNat_toNat] at hn

def IsAscii (s : List Char) : Prop := ∀ c ∈ s, c.toNat < 128

def folded (s : List Char) : List Char := s.map Char.toLower

theorem toLower_toLower {c : Char} (hc : c.toNat < 128) : c.toLower.toLower = c.toLower :=
  forall_ascii (P := fun c => c.toLower.toLower = c.toLower) (by decide) hc

theorem toUpper_toLower {c : Char} (hc : c.toNat < 128) : c.toLower.toUpper = c.toUpper :=
  forall_ascii (P := fun c => c.toLower.toUpper = c.toUpper) (by decide) hc

theorem toNat_toLower {c : Char} (hc : c.toNat < 128) : c.toLower.toNat < 128 :=
  forall_ascii (P := fun c => c.toLower.toNat < 128) (by decide) hc

theorem toNat_toUpper {c : Char} (hc : c.toNat < 128) : c.toUpper.toNat < 128 :=
  forall_ascii (P := fun c => c.toUpper.toNat < 128) (by decide) hc

theorem lower_ascii {c : Char} (hc : c.toNat < 128) : lower c = [c.toLower] := if_pos hc

theorem upper_ascii {c : Char} (hc : c.toNat < 128) : upper c = [c.toUpper] := if_pos hc

theorem lowerFrom_ascii {s : List Char} (h : IsAscii s) (before : List Char) :
    lowerFrom before s = folded s := by
  induction s generalizing before with
  | nil => rfl
  | cons c s ih =>
    have hc : c.toNat < 128 := h c List.mem_cons_self
    have hs : IsAscii s := fun d hd => h d (List.mem_cons_of_mem c hd)
    have sigma : c ≠ 'Σ' := by
      rintro rfl
      exact absurd hc (by decide)
    rw [lowerFrom, if_neg sigma, lower_ascii hc, ih hs]
    rfl

theorem lowercase_ascii {s : List Char} (h : IsAscii s) : lowercase s = folded s :=
  lowerFrom_ascii h []

theorem flatMap_lower_ascii {s : List Char} (h : IsAscii s) : s.flatMap lower = folded s := by
  rw [folded, List.map_eq_flatMap]
  exact List.flatMap_congr fun c hc => lower_ascii (h c hc)

theorem uppercase_ascii {s : List Char} (h : IsAscii s) : uppercase s = s.map Char.toUpper := by
  rw [uppercase, List.map_eq_flatMap]
  exact List.flatMap_congr fun c hc => upper_ascii (h c hc)

theorem IsAscii.folded {s : List Char} (h : IsAscii s) : IsAscii (folded s) := by
  intro c hc
  obtain ⟨d, hd, rfl⟩ := List.mem_map.mp hc
  exact toNat_toLower (h d hd)

theorem folded_folded {s : List Char} (h : IsAscii s) : folded (folded s) = folded s := by
  rw [folded, folded, List.map_map]
  exact List.map_congr_left fun c hc => toLower_toLower (h c hc)

theorem uppercase_folded {s : List Char} (h : IsAscii s) :
    uppercase (folded s) = uppercase s := by
  rw [uppercase_ascii h.folded, uppercase_ascii h, folded, List.map_map]
  exact List.map_congr_left fun c hc => toUpper_toLower (h c hc)

end Text

namespace Casing
open Text

theorem capitalize_ascii {c : Char} {s : List Char} (h : IsAscii (c :: s)) :
    capitalize (c :: s) = c.toUpper :: folded s := by
  rw [capitalize, upper_ascii (h c List.mem_cons_self),
    flatMap_lower_ascii fun d hd => h d (List.mem_cons_of_mem c hd)]
  rfl

theorem capitalize_folded {s : List Char} (h : IsAscii s) :
    capitalize (folded s) = capitalize s := by
  cases s with
  | nil => rfl
  | cons c s =>
    have hs : IsAscii s := fun d hd => h d (List.mem_cons_of_mem c hd)
    have hf : IsAscii (c.toLower :: folded s) := h.folded
    calc capitalize (folded (c :: s))
        = c.toLower.toUpper :: folded (folded s) := capitalize_ascii hf
      _ = c.toUpper :: folded s := by
          rw [toUpper_toLower (h c List.mem_cons_self), folded_folded hs]
      _ = capitalize (c :: s) := (capitalize_ascii h).symm

theorem lowercase_folded {s : List Char} (h : IsAscii s) :
    lowercase (folded s) = lowercase s := by
  rw [lowercase_ascii h.folded, lowercase_ascii h, folded_folded h]

/-- A name is made of words without regard to their case. -/
theorem assemble_folded (casing : Casing) {ws : List (List Char)} (h : ∀ w ∈ ws, IsAscii w) :
    assemble casing (ws.map folded) = assemble casing ws := by
  have mapped {f : List Char → List Char} (hf : ∀ w, IsAscii w → f (folded w) = f w)
      {us : List (List Char)} (hu : ∀ w ∈ us, IsAscii w) : (us.map folded).map f = us.map f := by
    rw [List.map_map]
    exact List.map_congr_left fun w hw => hf w (hu w hw)
  have capitals {us : List (List Char)} (hu : ∀ w ∈ us, IsAscii w) :
      (us.map folded).flatMap capitalize = us.flatMap capitalize := by
    rw [List.flatMap_map]
    exact List.flatMap_congr fun w hw => capitalize_folded (hu w hw)
  cases casing with
  | snake => exact congrArg (joined ['_']) (mapped (fun _ => lowercase_folded) h)
  | kebab => exact congrArg (joined ['-']) (mapped (fun _ => lowercase_folded) h)
  | constant => exact congrArg (joined ['_']) (mapped (fun _ => uppercase_folded) h)
  | pascal => exact capitals h
  | camel =>
    cases ws with
    | nil => rfl
    | cons w ws =>
      rw [List.forall_mem_cons] at h
      show lowercase (folded w) ++ (ws.map folded).flatMap capitalize = _
      rw [lowercase_folded h.1, capitals h.2]
      rfl

end Casing
end DataAccess
