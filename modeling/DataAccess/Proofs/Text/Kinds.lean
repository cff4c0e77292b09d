import DataAccess.Proofs.Text.Ascii
import DataAccess.Proofs.Text.Words

/-!
Kinds of characters that a name does not leave when it is converted, because the case of letters
stays inside them. What is no letter is in a converted name only if it was in the name before.
-/
namespace DataAccess
namespace Text

def isSign (c : Char) : Bool := 0 < c.toNat && c.toNat < 65

theorem not_sign_ofNat {n : Nat} (h : 64 < n) : isSign (Char.ofNat n) = false := by
  unfold Char.ofNat
  by_cases valid : n.isValidChar
  · rw [dif_pos valid, isSign, Bool.and_eq_false_iff, decide_eq_false_iff_not,
      decide_eq_false_iff_not]
    exact .inr (by show ¬ n < 65; omega)
  · rw [dif_neg valid]
    decide

/-- Other forms of a letter are no signs if no form in the tables is one. -/
theorem not_sign_recased {spellings : List (Nat × List Nat)} {shifts : List Shift}
    (hs : ∀ e ∈ spellings, ∀ n ∈ e.2, 64 < n) (ht : ∀ s ∈ shifts, 64 < s.2.2.2) {c : Char}
    (hc : 64 < c.toNat) : ∀ d ∈ recased spellings shifts c, isSign d = false := by
  unfold recased
  split
  next codes hl =>
    obtain ⟨before, after, he, -⟩ := List.lookup_eq_some_iff.mp hl
    have large : ∀ n ∈ codes, 64 < n := hs (c.toNat, codes) (by simp [he])
    intro d hd
    obtain ⟨n, hn, rfl⟩ := List.mem_map.mp hd
    exact not_sign_ofNat (large n hn)
  next =>
    rw [List.forall_mem_singleton]
    apply not_sign_ofNat
    unfold shifted
    split
    next s hf =>
      have := ht s (List.mem_of_find?_eq_some hf)
      omega
    next => exact hc

/-- A form of letters that is given by a function on ASCII and by tables past it. -/
theorem form_cases {ascii : Char → Char} {spellings : List (Nat × List Nat)}
    {shifts : List Shift}
    (ha : ∀ n < 128, ascii (Char.ofNat n) = Char.ofNat n ∨ isSign (ascii (Char.ofNat n)) = false)
    (hs : ∀ e ∈ spellings, ∀ n ∈ e.2, 64 < n) (ht : ∀ s ∈ shifts, 64 < s.2.2.2) (c : Char) :
    let form := if c.toNat < 128 then [ascii c] else recased spellings shifts c
    form = [c] ∨ ∀ d ∈ form, isSign d = false := by
  intro form
  by_cases hc : c.toNat < 128
  · have here : form = [ascii c] := if_pos hc
    rw [here, List.forall_mem_singleton]
    exact (forall_ascii (P := fun c => ascii c = c ∨ isSign (ascii c) = false) ha hc).imp_left
      (congrArg fun d => [d])
  · have here : form = recased spellings shifts c := if_neg hc
    rw [here]
    exact .inr (not_sign_recased hs ht (by omega))

theorem lower_cases (c : Char) : lower c = [c] ∨ ∀ d ∈ lower c, isSign d = false :=
  form_cases (by decide) (by decide) (by decide +kernel) c

theorem upper_cases (c : Char) : upper c = [c] ∨ ∀ d ∈ upper c, isSign d = false :=
  form_cases (by decide) (by decide) (by decide +kernel) c

theorem forall_mem_joined {P : Char → Prop} {separator : List Char} {ps : List (List Char)}
    (hs : ∀ c ∈ separator, P c) (h : ∀ p ∈ ps, ∀ c ∈ p, P c) : ∀ d ∈ joined separator ps, P d := by
  intro d hd
  rcases mem_joined hd with hd | ⟨p, hp, hd⟩
  · exact hs d hd
  · exact h p hp d hd

/-- The case of a letter of this kind can be changed within the kind. -/
structure CaseStable (P : Char → Prop) : Prop where
  lower : ∀ {c}, P c → ∀ d ∈ lower c, P d
  upper : ∀ {c}, P c → ∀ d ∈ upper c, P d
  sigma : P 'Σ' → P 'σ' ∧ P 'ς'

theorem caseStable_ascii : CaseStable (·.toNat < 128) where
  lower := by
    intro c hc
    rw [lower_ascii hc, List.forall_mem_singleton]
    exact toNat_toLower hc
  upper := by
    intro c hc
    rw [upper_ascii hc, List.forall_mem_singleton]
    exact toNat_toUpper hc
  sigma := fun h => absurd h (by decide)

/-- All characters but one that has no case. -/
theorem caseStable_ne {x : Char} (hx : isSign x = true) : CaseStable (· ≠ x) := by
  have other {c : Char} {form : List Char}
      (h : form = [c] ∨ ∀ d ∈ form, isSign d = false) (hc : c ≠ x) : ∀ d ∈ form, d ≠ x := by
    rcases h with rfl | letters
    · rwa [List.forall_mem_singleton]
    · rintro d hd rfl
      exact absurd hx (by rw [letters d hd]; decide)
  refine ⟨fun h => other (lower_cases _) h, fun h => other (upper_cases _) h, fun _ => ?_⟩
  constructor <;> rintro rfl <;> exact absurd hx (by decide)

namespace CaseStable
variable {P : Char → Prop}

theorem lowerFrom (h : CaseStable P) {s : List Char} (hs : ∀ c ∈ s, P c) (before : List Char) :
    ∀ d ∈ lowerFrom before s, P d := by
  induction s generalizing before with
  | nil => exact List.forall_mem_nil _
  | cons c s ih =>
    obtain ⟨here, others⟩ := List.forall_mem_cons.mp hs
    rw [Text.lowerFrom, List.forall_mem_append]
    refine ⟨?_, ih others _⟩
    split_ifs with sigma
    · rw [List.forall_mem_singleton]
      exact (h.sigma (sigma ▸ here)).2
    · rw [List.forall_mem_singleton]
      exact (h.sigma (sigma ▸ here)).1
    · exact h.lower here

theorem lowercase (h : CaseStable P) {s : List Char} (hs : ∀ c ∈ s, P c) :
    ∀ d ∈ lowercase s, P d := h.lowerFrom hs []

theorem uppercase (h : CaseStable P) {s : List Char} (hs : ∀ c ∈ s, P c) :
    ∀ d ∈ uppercase s, P d := by
  intro d hd
  obtain ⟨c, hc, hd⟩ := List.mem_flatMap.mp hd
  exact h.upper (hs c hc) d hd

theorem capitalize (h : CaseStable P) {s : List Char} (hs : ∀ c ∈ s, P c) :
    ∀ d ∈ Casing.capitalize s, P d := by
  cases s with
  | nil => exact hs
  | cons c s =>
    obtain ⟨here, others⟩ := List.forall_mem_cons.mp hs
    rw [Casing.capitalize, List.forall_mem_append]
    refine ⟨h.upper here, fun d hd => ?_⟩
    obtain ⟨e, he, hd⟩ := List.mem_flatMap.mp hd
    exact h.lower (others e he) d hd

theorem assemble (h : CaseStable P) {casing : Casing} (mark : P '_')
    (dash : casing = .kebab → P '-') {ws : List (List Char)} (hw : ∀ w ∈ ws, ∀ c ∈ w, P c) :
    ∀ d ∈ Casing.assemble casing ws, P d := by
  have mapped {f : List Char → List Char}
      (hf : ∀ {w}, (∀ c ∈ w, P c) → ∀ d ∈ f w, P d) : ∀ p ∈ ws.map f, ∀ d ∈ p, P d := by
    intro p hp
    obtain ⟨w, hm, rfl⟩ := List.mem_map.mp hp
    exact hf (hw w hm)
  have capitals {us : List (List Char)} (hu : ∀ w ∈ us, ∀ c ∈ w, P c) :
      ∀ d ∈ us.flatMap Casing.capitalize, P d := by
    intro d hd
    obtain ⟨w, hm, hd⟩ := List.mem_flatMap.mp hd
    exact h.capitalize (hu w hm) d hd
  cases casing with
  | snake => exact forall_mem_joined (by simpa using mark) (mapped h.lowercase)
  | kebab => exact forall_mem_joined (by simpa using dash rfl) (mapped h.lowercase)
  | constant => exact forall_mem_joined (by simpa using mark) (mapped h.uppercase)
  | pascal => exact capitals hw
  | camel =>
    cases ws with
    | nil => exact List.forall_mem_nil _
    | cons w ws =>
      obtain ⟨here, others⟩ := List.forall_mem_cons.mp hw
      rw [Casing.assemble, List.forall_mem_append]
      exact ⟨h.lowercase here, capitals others⟩

/-- A name does not leave a kind of characters that has the separators of the convention. -/
theorem convertChars (h : CaseStable P) {casing : Casing} (mark : P '_')
    (dash : casing = .kebab → P '-') {s : List Char} (hs : ∀ c ∈ s, P c) :
    ∀ d ∈ casing.convertChars s, P d := by
  rw [Casing.convertChars, List.forall_mem_append]
  refine ⟨fun d hd => hs d (List.takeWhile_sublist _ |>.subset hd), ?_⟩
  refine h.assemble mark dash fun w hw d hd => hs d ?_
  exact (List.dropWhile_sublist _).subset (Casing.mem_of_mem_words hw hd)

end CaseStable

/-- What is in a converted name, and is neither a letter nor a separator, was in the name. -/
theorem not_mem_convertChars {x : Char} (sign : isSign x = true) {casing : Casing}
    (dash : casing = .kebab → x ≠ '-') {s : List Char} (h : x ∉ s) :
    x ∉ casing.convertChars s := by
  have mark : '_' ≠ x := by
    rintro rfl
    exact absurd sign (by decide)
  intro hx
  exact (caseStable_ne sign).convertChars mark (fun kebab => (dash kebab).symm)
    (fun c hc same => h (same ▸ hc)) x hx rfl

end Text
end DataAccess
