import DataAccess.Text.Cut
import Mathlib.Tactic.SplitIfs

/-! The characters of the parts that a text is cut into. -/
namespace DataAccess
namespace Text

theorem unmarked_eq_some {c : Char} {s rest : List Char} (h : unmarked c s = some rest) :
    s = c :: rest := by
  cases s with
  | nil => simp [unmarked] at h
  | cons d s =>
    rw [unmarked] at h
    split at h
    · cases h
      subst d
      rfl
    · contradiction

theorem cutFirst_eq_some {c : Char} {s : List Char} {p : List Char × List Char}
    (h : cutFirst c s = some p) : s = p.1 ++ c :: p.2 := by
  induction s generalizing p with
  | nil => simp [cutFirst] at h
  | cons d s ih =>
    rw [cutFirst] at h
    split at h
    next hd =>
      cases h
      rw [hd]
      rfl
    · obtain ⟨q, hq, rfl⟩ := Option.map_eq_some_iff.mp h
      rw [ih hq]
      rfl

theorem cutLast_eq_some {c : Char} {s : List Char} {p : List Char × List Char}
    (h : cutLast c s = some p) : s = p.1 ++ c :: p.2 := by
  induction s generalizing p with
  | nil => simp [cutLast] at h
  | cons d s ih =>
    rw [cutLast] at h
    split at h
    next q hq =>
      cases h
      rw [ih hq]
      rfl
    next =>
      split at h
      next hd =>
        cases h
        rw [hd]
        rfl
      · contradiction

theorem mem_grow {c d : Char} {ps : List (List Char)} {p : List Char} (hp : p ∈ grow c ps)
    (hd : d ∈ p) : d = c ∨ ∃ q ∈ ps, d ∈ q := by
  cases ps with
  | nil =>
    rw [grow, List.mem_singleton] at hp
    subst hp
    exact .inl (List.mem_singleton.mp hd)
  | cons q ps =>
    rcases List.mem_cons.mp hp with rfl | hp
    · rcases List.mem_cons.mp hd with hd | hd
      · exact .inl hd
      · exact .inr ⟨q, List.mem_cons_self, hd⟩
    · exact .inr ⟨p, List.mem_cons_of_mem q hp, hd⟩

theorem mem_of_mem_parts {c d : Char} {s p : List Char} (hp : p ∈ parts c s) (hd : d ∈ p) :
    d ∈ s := by
  induction s generalizing p with
  | nil =>
    rw [parts, List.mem_singleton] at hp
    exact hp ▸ hd
  | cons e s ih =>
    rw [parts] at hp
    split at hp
    · rcases List.mem_cons.mp hp with rfl | hp
      · contradiction
      · exact List.mem_cons_of_mem e (ih hp hd)
    · rcases mem_grow hp hd with rfl | ⟨q, hq, hd⟩
      · exact List.mem_cons_self
      · exact List.mem_cons_of_mem e (ih hq hd)

theorem mem_of_mem_arrowParts {d : Char} {s p : List Char} (hp : p ∈ arrowParts s)
    (hd : d ∈ p) : d ∈ s := by
  induction s using arrowParts.induct generalizing p with
  | case1 =>
    rw [arrowParts, List.mem_singleton] at hp
    exact hp ▸ hd
  | case2 rest ih =>
    rw [arrowParts] at hp
    rcases List.mem_cons.mp hp with rfl | hp
    · contradiction
    · exact List.mem_cons_of_mem _ (List.mem_cons_of_mem _ (ih hp hd))
  | case3 c rest hne ih =>
    rw [arrowParts] at hp
    · rcases mem_grow hp hd with rfl | ⟨q, hq, hd⟩
      · exact List.mem_cons_self
      · exact List.mem_cons_of_mem c (ih hq hd)
    · exact hne

theorem arrowParts_ne_nil (s : List Char) : arrowParts s ≠ [] := by
  induction s using arrowParts.induct with
  | case1 => simp [arrowParts]
  | case2 rest ih => simp [arrowParts]
  | case3 c rest hne ih =>
    rw [arrowParts]
    · cases arrowParts rest <;> simp [grow]
    · exact hne

theorem joined_cons (separator p : List Char) (ps : List (List Char)) :
    joined separator (p :: ps) = p ++ ps.flatMap (separator ++ ·) := by
  induction ps generalizing p with
  | nil => rw [joined, List.flatMap_nil, List.append_nil]
  | cons q ps ih =>
    rw [joined, ih, List.flatMap_cons]
    · simp only [List.append_assoc]
    · exact List.cons_ne_nil q ps

theorem joined_append {separator : List Char} {ps : List (List Char)} (h : ps ≠ [])
    (qs : List (List Char)) :
    joined separator (ps ++ qs) = joined separator ps ++ qs.flatMap (separator ++ ·) := by
  obtain ⟨p, ps, rfl⟩ := List.exists_cons_of_ne_nil h
  rw [List.cons_append, joined_cons, joined_cons, List.flatMap_append, List.append_assoc]

/-- What is added to the last part is added to the whole. -/
theorem joined_concat_append (separator : List Char) (ps : List (List Char)) (p s : List Char) :
    joined separator (ps ++ [p ++ s]) = joined separator (ps ++ [p]) ++ s := by
  cases ps with
  | nil => rfl
  | cons q ps => simp [joined_cons]

theorem joined_arrowParts (s : List Char) : joined ['-', '>'] (arrowParts s) = s := by
  induction s using arrowParts.induct with
  | case1 => rfl
  | case2 rest ih =>
    obtain ⟨p, ps, hp⟩ := List.exists_cons_of_ne_nil (arrowParts_ne_nil rest)
    rw [arrowParts, joined_cons, hp, List.flatMap_cons]
    rw [hp, joined_cons] at ih
    rw [← ih]
    simp
  | case3 c rest hne ih =>
    obtain ⟨p, ps, hp⟩ := List.exists_cons_of_ne_nil (arrowParts_ne_nil rest)
    rw [arrowParts, hp, grow, joined_cons, List.cons_append]
    · rw [hp, joined_cons] at ih
      rw [ih]
    · exact hne

theorem mem_joined {separator : List Char} {d : Char} {ps : List (List Char)}
    (h : d ∈ joined separator ps) : d ∈ separator ∨ ∃ p ∈ ps, d ∈ p := by
  induction ps using joined.induct with
  | case1 => simp [joined] at h
  | case2 p => exact .inr ⟨p, List.mem_cons_self, h⟩
  | case3 p ps hne ih =>
    rw [joined] at h
    · simp only [List.mem_append] at h
      rcases h with (h | h) | h
      · exact .inr ⟨p, List.mem_cons_self, h⟩
      · exact .inl h
      · rcases ih h with h | ⟨q, hq, h⟩
        · exact .inl h
        · exact .inr ⟨q, List.mem_cons_of_mem p hq, h⟩
    · exact hne

theorem unmarked_of_not_mem {c : Char} {s : List Char} (h : c ∉ s) : unmarked c s = none := by
  cases s with
  | nil => rfl
  | cons d s => exact if_neg (Ne.symm (List.ne_of_not_mem_cons h))

theorem cutFirst_of_not_mem {c : Char} {s : List Char} (h : c ∉ s) : cutFirst c s = none := by
  induction s with
  | nil => rfl
  | cons d s ih =>
    obtain ⟨here, others⟩ := not_or.mp (mt List.mem_cons.mpr h)
    rw [cutFirst, if_neg (Ne.symm here), ih others]
    rfl

theorem cutFirst_append {c : Char} {s : List Char} (h : c ∉ s) (rest : List Char) :
    cutFirst c (s ++ c :: rest) = some (s, rest) := by
  induction s with
  | nil => exact if_pos rfl
  | cons d s ih =>
    obtain ⟨here, others⟩ := not_or.mp (mt List.mem_cons.mpr h)
    rw [List.cons_append, cutFirst, if_neg (Ne.symm here), ih others]
    rfl

theorem parts_of_not_mem {c : Char} {s : List Char} (h : c ∉ s) : parts c s = [s] := by
  induction s with
  | nil => rfl
  | cons d s ih =>
    obtain ⟨here, others⟩ := not_or.mp (mt List.mem_cons.mpr h)
    rw [parts, if_neg (Ne.symm here), ih others]
    rfl

theorem parts_append {c : Char} {s : List Char} (h : c ∉ s) (rest : List Char) :
    parts c (s ++ c :: rest) = s :: parts c rest := by
  induction s with
  | nil => exact if_pos rfl
  | cons d s ih =>
    obtain ⟨here, others⟩ := not_or.mp (mt List.mem_cons.mpr h)
    rw [List.cons_append, parts, if_neg (Ne.symm here), ih others]
    rfl

/-- What has no separator is added to the last part. -/
theorem parts_append_last {c : Char} {t : List Char} (h : c ∉ t) (s : List Char) :
    ∃ ps p, parts c s = ps ++ [p] ∧ parts c (s ++ t) = ps ++ [p ++ t] := by
  induction s with
  | nil => exact ⟨[], [], rfl, parts_of_not_mem h⟩
  | cons d s ih =>
    obtain ⟨ps, p, hs, ht⟩ := ih
    rw [List.cons_append, parts, parts, hs, ht]
    split_ifs
    · exact ⟨[] :: ps, p, rfl, rfl⟩
    · cases ps with
      | nil => exact ⟨[], d :: p, rfl, rfl⟩
      | cons q ps => exact ⟨(d :: q) :: ps, p, rfl, rfl⟩

theorem arrowParts_cons {c : Char} {s : List Char} (h : c = '-' → s.head? ≠ some '>') :
    arrowParts (c :: s) = grow c (arrowParts s) := by
  rw [arrowParts]
  rintro rest rfl rfl
  exact h rfl rfl

/-- Without an arrow in it a text goes up to the next one, also if it ends with a minus. -/
theorem arrowParts_append {s : List Char} (h : ¬ ['-', '>'] <:+: s) (rest : List Char) :
    arrowParts (s ++ '-' :: '>' :: rest) = s :: arrowParts rest := by
  induction s with
  | nil => rw [List.nil_append, arrowParts]
  | cons c s ih =>
    have apart : c = '-' → (s ++ '-' :: '>' :: rest).head? ≠ some '>' := by
      rintro rfl
      cases s with
      | nil => exact nofun
      | cons d s =>
        rintro hd
        obtain rfl : d = '>' := Option.some.inj hd
        exact h (List.prefix_append ['-', '>'] s).isInfix
    rw [List.cons_append, arrowParts_cons apart, ih fun hs => h (List.infix_cons hs)]
    rfl

theorem arrowParts_of_not_infix {s : List Char} (h : ¬ ['-', '>'] <:+: s) :
    arrowParts s = [s] := by
  induction s with
  | nil => rfl
  | cons c s ih =>
    have apart : c = '-' → s.head? ≠ some '>' := by
      rintro rfl hd
      obtain ⟨rest, rfl⟩ := List.head?_eq_some_iff.mp hd
      exact h (List.prefix_append ['-', '>'] rest).isInfix
    rw [arrowParts_cons apart, ih fun hs => h (List.infix_cons hs)]
    rfl

end Text
end DataAccess
