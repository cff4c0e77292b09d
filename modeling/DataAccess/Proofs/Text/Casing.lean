import DataAccess.Proofs.Text.Kinds
import DataAccess.Proofs.Text.Words

/-!
Names through several conventions. The words of a canonical name can be read off again in each
convention, so that a name that was converted is converted further as if it never had been.
-/
namespace DataAccess.Casing
open Text

def isSmall (c : Char) : Bool := c.isLower || c.isDigit

theorem isSmall_ascii {c : Char} (h : isSmall c = true) : c.toNat < 128 := by
  have last : c.toNat ≤ 122 ∨ c.toNat ≤ 57 := by
    rcases Bool.or_eq_true_iff.mp h with small | digit
    · exact .inl (of_decide_eq_true (Bool.and_eq_true_iff.mp small).2)
    · exact .inr (of_decide_eq_true (Bool.and_eq_true_iff.mp digit).2)
  omega

theorem forall_small {P : Char → Prop} (h : ∀ n < 128, isSmall (Char.ofNat n) = true →
    P (Char.ofNat n)) {c : Char} (hc : isSmall c = true) : P c :=
  forall_ascii (P := fun c => isSmall c = true → P c) h (isSmall_ascii hc) hc

theorem not_separator_of_small {c : Char} (h : isSmall c = true) : isSeparator c = false :=
  forall_small (P := fun c => isSeparator c = false) (by decide) h

theorem not_upper_of_small {c : Char} (h : isSmall c = true) : isUpper c = false :=
  forall_small (P := fun c => isUpper c = false) (by decide) h

theorem lower_or_digit_of_small {c : Char} (h : isSmall c = true) :
    isLower c = true ∨ c.isDigit = true :=
  forall_small (P := fun c => isLower c = true ∨ c.isDigit = true) (by decide) h

theorem not_separator_toUpper {c : Char} (h : isSmall c = true) :
    isSeparator c.toUpper = false :=
  forall_small (P := fun c => isSeparator c.toUpper = false) (by decide) h

theorem not_lower_toUpper {c : Char} (h : isSmall c = true) : isLower c.toUpper = false :=
  forall_small (P := fun c => isLower c.toUpper = false) (by decide) h

theorem toLower_of_small {c : Char} (h : isSmall c = true) : c.toLower = c :=
  forall_small (P := fun c => c.toLower = c) (by decide) h

theorem toLower_toUpper_of_small {c : Char} (h : isSmall c = true) : c.toUpper.toLower = c :=
  forall_small (P := fun c => c.toUpper.toLower = c) (by decide) h

theorem small_of_isLower {c : Char} (h : c.isLower = true) : isSmall c = true := by
  simp [isSmall, h]

theorem lower_of_isLower {c : Char} (h : c.isLower = true) : isLower c = true :=
  forall_small (P := fun c => c.isLower = true → isLower c = true) (by decide)
    (small_of_isLower h) h

theorem upper_toUpper_of_isLower {c : Char} (h : c.isLower = true) : isUpper c.toUpper = true :=
  forall_small (P := fun c => c.isLower = true → isUpper c.toUpper = true) (by decide)
    (small_of_isLower h) h

/-- An unfinished word that ends with small letters and digits and has a small letter there. -/
theorem isClosed_append {w : List Char} (h : ∀ c ∈ w, isSmall c = true)
    (hl : ∃ c ∈ w, isLower c = true) (before : List Char) : IsClosed (w.reverse ++ before) := by
  obtain ⟨c, hc, hcl⟩ := hl
  have some : (w.reverse ++ before).any isLower = true :=
    List.any_eq_true.mpr ⟨c, by simp [hc], hcl⟩
  cases hw : w.reverse with
  | nil => simp_all
  | cons p rest =>
    have hp : p ∈ w := List.mem_reverse.mp (hw ▸ List.mem_cons_self)
    rw [hw] at some
    refine ⟨p, rest ++ before, rfl, ?_⟩
    rcases lower_or_digit_of_small (h p hp) with hpl | hpd
    · exact .inl hpl
    · exact .inr ⟨hpd, some⟩

def isCanonical : List Char → Bool
  | c :: d :: rest => c.isLower && d.isLower && rest.all isSmall
  | _ => false

/-- A canonical word has a small letter after the first one. -/
theorem isCanonical_cases {w : List Char} (h : isCanonical w = true) :
    ∃ c rest, w = c :: rest ∧ c.isLower = true ∧ (∀ d ∈ rest, isSmall d = true) ∧
      ∃ d ∈ rest, isLower d = true := by
  obtain _ | ⟨c, _ | ⟨d, rest⟩⟩ := w
  · contradiction
  · contradiction
  simp only [isCanonical, Bool.and_eq_true, List.all_eq_true] at h
  obtain ⟨⟨hc, hd⟩, hr⟩ := h
  refine ⟨c, d :: rest, rfl, hc, ?_, d, List.mem_cons_self, lower_of_isLower hd⟩
  rw [List.forall_mem_cons]
  exact ⟨small_of_isLower hd, hr⟩

theorem small_of_isCanonical {w : List Char} (h : isCanonical w = true) :
    ∀ c ∈ w, isSmall c = true := by
  obtain ⟨c, rest, rfl, hc, hr, -⟩ := isCanonical_cases h
  rw [List.forall_mem_cons]
  exact ⟨small_of_isLower hc, hr⟩

theorem ascii_of_isCanonical {w : List Char} (h : isCanonical w = true) : IsAscii w :=
  fun c hc => isSmall_ascii (small_of_isCanonical h c hc)

theorem folded_of_small {w : List Char} (h : ∀ c ∈ w, isSmall c = true) : folded w = w := by
  have same : w.map Char.toLower = w.map id :=
    List.map_congr_left fun c hc => toLower_of_small (h c hc)
  rwa [List.map_id] at same

theorem lowercase_of_isCanonical {w : List Char} (h : isCanonical w = true) :
    lowercase w = w := by
  rw [lowercase_ascii (ascii_of_isCanonical h), folded_of_small (small_of_isCanonical h)]

theorem isWhole_of_isCanonical {w : List Char} (h : isCanonical w = true) : IsWhole w := by
  have small := small_of_isCanonical h
  refine ⟨?_, fun c hc => not_separator_of_small (small c hc),
    .inl fun c hc => not_upper_of_small (small c hc)⟩
  rintro rfl
  contradiction

theorem isWhole_uppercase {w : List Char} (h : isCanonical w = true) :
    IsWhole (uppercase w) := by
  have small := small_of_isCanonical h
  rw [uppercase_ascii (ascii_of_isCanonical h)]
  have capital : ∀ c ∈ w.map Char.toUpper, isSeparator c = false ∧ isLower c = false := by
    intro c hc
    obtain ⟨d, hd, rfl⟩ := List.mem_map.mp hc
    exact ⟨not_separator_toUpper (small d hd), not_lower_toUpper (small d hd)⟩
  refine ⟨?_, fun c hc => (capital c hc).1, .inr fun c hc => (capital c hc).2⟩
  intro hn
  rw [List.map_eq_nil_iff.mp hn] at h
  contradiction

theorem folded_uppercase {w : List Char} (h : isCanonical w = true) :
    folded (uppercase w) = w := by
  have same : (w.map Char.toUpper).map Char.toLower = w.map id := by
    rw [List.map_map]
    exact List.map_congr_left fun c hc => toLower_toUpper_of_small (small_of_isCanonical h c hc)
  rw [uppercase_ascii (ascii_of_isCanonical h), folded, same, List.map_id]

/-- A canonical word with a capital in front is one that a further capital ends. -/
theorem capitalize_cases {w : List Char} (h : isCanonical w = true) :
    ∃ c rest, capitalize w = c :: rest ∧ isSeparator c = false ∧ isUpper c = true ∧
      (∀ d ∈ rest, isSeparator d = false ∧ isUpper d = false) ∧
      IsClosed (rest.reverse ++ [c]) := by
  have ascii := ascii_of_isCanonical h
  obtain ⟨c, rest, rfl, hc, hr, hl⟩ := isCanonical_cases h
  refine ⟨c.toUpper, rest, ?_, not_separator_toUpper (small_of_isLower hc),
    upper_toUpper_of_isLower hc, fun d hd => ?_, isClosed_append hr hl _⟩
  · rw [capitalize_ascii ascii, folded_of_small hr]
  · exact ⟨not_separator_of_small (hr d hd), not_upper_of_small (hr d hd)⟩

theorem folded_capitalize {w : List Char} (h : isCanonical w = true) :
    folded (capitalize w) = w := by
  have ascii := ascii_of_isCanonical h
  obtain ⟨c, rest, rfl, hc, hr, -⟩ := isCanonical_cases h
  have restored := toLower_toUpper_of_small (small_of_isLower hc)
  rw [capitalize_ascii ascii, folded_of_small hr]
  calc folded (c.toUpper :: rest) = c.toUpper.toLower :: folded rest := rfl
    _ = c :: rest := by rw [restored, folded_of_small hr]

/-- Words with a capital in front end the unfinished word and are read off one by one. -/
theorem wordsFrom_capitalized {current : List Char} (hc : IsClosed current)
    {ws : List (List Char)} (h : ∀ w ∈ ws, isCanonical w = true) :
    wordsFrom current (ws.flatMap capitalize) = current.reverse :: ws.map capitalize := by
  induction ws generalizing current with
  | nil => exact hc.flush
  | cons w ws ih =>
    rw [List.forall_mem_cons] at h
    obtain ⟨c, rest, hw, hs, hu, hr, closed⟩ := capitalize_cases h.1
    calc wordsFrom current ((w :: ws).flatMap capitalize)
        = wordsFrom current (c :: (rest ++ ws.flatMap capitalize)) := by
          rw [List.flatMap_cons, hw, List.cons_append]
      _ = current.reverse :: wordsFrom [c] (rest ++ ws.flatMap capitalize) := by
          rw [wordsFrom, hs, hc.startsWord hu]
          rfl
      _ = current.reverse :: wordsFrom (rest.reverse ++ [c]) (ws.flatMap capitalize) := by
          rw [wordsFrom_append_of_not_upper hr]
      _ = current.reverse :: capitalize w :: ws.map capitalize := by
          rw [ih closed h.2, hw]
          simp

theorem words_pascal {ws : List (List Char)} (h : ∀ w ∈ ws, isCanonical w = true) :
    words (assemble .pascal ws) = ws.map capitalize := by
  cases ws with
  | nil => rfl
  | cons w ws =>
    rw [List.forall_mem_cons] at h
    obtain ⟨c, rest, hw, hs, -, hr, closed⟩ := capitalize_cases h.1
    calc words ((w :: ws).flatMap capitalize)
        = wordsFrom [] (c :: (rest ++ ws.flatMap capitalize)) := by
          rw [List.flatMap_cons, hw, List.cons_append, words]
      _ = wordsFrom [c] (rest ++ ws.flatMap capitalize) := by
          rw [wordsFrom, hs]
          rfl
      _ = wordsFrom (rest.reverse ++ [c]) (ws.flatMap capitalize) :=
          wordsFrom_append_of_not_upper hr _ _
      _ = (w :: ws).map capitalize := by
          rw [wordsFrom_capitalized closed h.2, List.map_cons, hw]
          simp

theorem words_camel {w : List Char} {ws : List (List Char)} (hw : isCanonical w = true)
    (h : ∀ v ∈ ws, isCanonical v = true) :
    words (assemble .camel (w :: ws)) = w :: ws.map capitalize := by
  have small := small_of_isCanonical hw
  have quiet : ∀ c ∈ w, isSeparator c = false ∧ isUpper c = false :=
    fun c hc => ⟨not_separator_of_small (small c hc), not_upper_of_small (small c hc)⟩
  have closed : IsClosed w.reverse := by
    obtain ⟨c, rest, rfl, hc, -⟩ := isCanonical_cases hw
    simpa using isClosed_append small ⟨c, List.mem_cons_self, lower_of_isLower hc⟩ []
  calc words (lowercase w ++ ws.flatMap capitalize)
      = wordsFrom [] (w ++ ws.flatMap capitalize) := by
        rw [lowercase_of_isCanonical hw, words]
    _ = wordsFrom w.reverse (ws.flatMap capitalize) := by
        rw [wordsFrom_append_of_not_upper quiet, List.append_nil]
    _ = w :: ws.map capitalize := by
        rw [wordsFrom_capitalized closed h, List.reverse_reverse]

theorem map_lowercase_of_isCanonical {ws : List (List Char)}
    (h : ∀ w ∈ ws, isCanonical w = true) : ws.map lowercase = ws := by
  have same : ws.map lowercase = ws.map id :=
    List.map_congr_left fun w hw => lowercase_of_isCanonical (h w hw)
  rwa [List.map_id] at same

/-- In each convention the words of a canonical name can be read off again. -/
theorem folded_words_assemble (casing : Casing) {ws : List (List Char)}
    (h : ∀ w ∈ ws, isCanonical w = true) : (words (assemble casing ws)).map folded = ws := by
  have restored {f : List Char → List Char} {us : List (List Char)}
      (hf : ∀ w ∈ us, folded (f w) = w) : (us.map f).map folded = us := by
    have same : us.map (folded ∘ f) = us.map id := List.map_congr_left hf
    rw [List.map_map, same, List.map_id]
  have separated {separator : Char} (hs : isSeparator separator = true)
      (hl : isLower separator = false) :
      (words (joined [separator] (ws.map lowercase))).map folded = ws := by
    rw [map_lowercase_of_isCanonical h,
      words_joined hs hl fun w hw => isWhole_of_isCanonical (h w hw)]
    simpa using restored (f := id) fun w hw => folded_of_small (small_of_isCanonical (h w hw))
  cases casing with
  | snake => exact separated (by decide) (by decide)
  | kebab => exact separated (by decide) (by decide)
  | constant =>
    have whole : ∀ v ∈ ws.map uppercase, IsWhole v := by
      intro v hv
      obtain ⟨w, hw, rfl⟩ := List.mem_map.mp hv
      exact isWhole_uppercase (h w hw)
    show (words (joined ['_'] (ws.map uppercase))).map folded = ws
    rw [words_joined (by decide) (by decide) whole]
    exact restored fun w hw => folded_uppercase (h w hw)
  | pascal =>
    rw [words_pascal h]
    exact restored fun w hw => folded_capitalize (h w hw)
  | camel =>
    cases ws with
    | nil => rfl
    | cons w ws =>
      rw [List.forall_mem_cons] at h
      rw [words_camel h.1 h.2, List.map_cons, folded_of_small (small_of_isCanonical h.1),
        restored fun v hv => folded_capitalize (h.2 v hv)]

theorem head?_joined {separator w : List Char} (hw : w ≠ []) (ws : List (List Char)) :
    (joined separator (w :: ws)).head? = w.head? := by
  obtain ⟨c, w, rfl⟩ := List.exists_cons_of_ne_nil hw
  cases ws <;> rfl

/-- Leading underscores are told from the words that follow them. -/
theorem head?_assemble (casing : Casing) {ws : List (List Char)}
    (h : ∀ w ∈ ws, isCanonical w = true) : (assemble casing ws).head? ≠ some '_' := by
  cases ws with
  | nil => cases casing <;> exact nofun
  | cons w ws =>
    rw [List.forall_mem_cons] at h
    have first {v rest : List Char} (hv : IsWhole v) (hr : rest.head? = v.head?) :
        rest.head? ≠ some '_' := hr ▸ hv.head?_ne
    have whole := isWhole_of_isCanonical h.1
    have lowered : lowercase w = w := lowercase_of_isCanonical h.1
    have separated (separator : List Char) :
        (joined separator ((w :: ws).map lowercase)).head? = w.head? := by
      rw [List.map_cons, lowered, head?_joined whole.ne_nil]
    cases casing with
    | snake => exact first whole (separated _)
    | kebab => exact first whole (separated _)
    | constant =>
      have capital := isWhole_uppercase h.1
      exact first capital (head?_joined capital.ne_nil _)
    | pascal =>
      obtain ⟨c, rest, hw, hs, -⟩ := capitalize_cases h.1
      rintro hn
      rw [assemble, List.flatMap_cons, hw] at hn
      obtain rfl : c = '_' := Option.some.inj hn
      exact absurd hs (by decide)
    | camel =>
      refine first whole ?_
      obtain ⟨c, rest, rfl, -⟩ := isCanonical_cases h.1
      rw [assemble, lowered]
      rfl

/-- Underscores in front are told from a body that begins otherwise. -/
theorem convertChars_marked {marks body : List Char} (only : ∀ c ∈ marks, c = '_')
    (first : body.head? ≠ some '_') (casing : Casing) :
    convertChars casing (marks ++ body) = marks ++ assemble casing (words body) := by
  have start : body.takeWhile (· = '_') = [] ∧ body.dropWhile (· = '_') = body := by
    cases body with
    | nil => exact ⟨rfl, rfl⟩
    | cons c rest =>
      have other : c ≠ '_' := fun hc => first (congrArg some hc)
      simp [other]
  have all : ∀ c ∈ marks, decide (c = '_') = true := fun c hc => decide_eq_true (only c hc)
  rw [convertChars, List.takeWhile_append_of_pos all, List.dropWhile_append_of_pos all, start.1,
    start.2, List.append_nil]

/-- The convention that a canonical name was in leaves no trace. -/
theorem convertChars_assemble (a b : Casing) (n : Nat) {ws : List (List Char)}
    (h : ∀ w ∈ ws, isCanonical w = true) :
    convertChars b (List.replicate n '_' ++ assemble a ws) =
      List.replicate n '_' ++ assemble b ws := by
  have ascii : ∀ v ∈ words (assemble a ws), IsAscii v := fun v hv c hc =>
    caseStable_ascii.assemble (by decide) (fun _ => by decide)
      (fun w hw => ascii_of_isCanonical (h w hw)) c (mem_of_mem_words hv hc)
  have body : assemble b (words (assemble a ws)) = assemble b ws := by
    rw [← assemble_folded b ascii, folded_words_assemble a h]
  rw [convertChars_marked (fun _ => List.eq_of_mem_replicate) (head?_assemble a h), body]

/-- A name of canonical words behind any number of underscores: whatever convention it is put in
first, another one makes the same of it, and the first one can be restored. -/
theorem convert_canonical (n : Nat) {ws : List (List Char)}
    (h : ∀ w ∈ ws, isCanonical w = true) (a b : Casing) :
    let name := String.ofList (List.replicate n '_' ++ joined ['_'] ws)
    b.convert (a.convert name) = b.convert name ∧
      a.convert (b.convert (a.convert name)) = a.convert name := by
  intro name
  have plain : name = String.ofList (List.replicate n '_' ++ assemble .snake ws) := by
    rw [assemble, map_lowercase_of_isCanonical h]
  have spelled (casing other : Casing) :
      casing.convert (String.ofList (List.replicate n '_' ++ assemble other ws)) =
        String.ofList (List.replicate n '_' ++ assemble casing ws) := by
    rw [convert, String.toList_ofList, convertChars_assemble other casing n h]
  rw [plain]
  constructor
  · rw [spelled, spelled, spelled]
  · rw [spelled, spelled, spelled]

/-- Digits stay in their words, in capitals and between humps. -/
theorem convert_canonical_digits :
    let ws := ["md5hash".toList, "aa0".toList, "sha256sum".toList]
    (∀ w ∈ ws, isCanonical w = true) ∧
      String.ofList (List.replicate 2 '_' ++ joined ['_'] ws) = "__md5hash_aa0_sha256sum" ∧
      constant.convert "__md5hash_aa0_sha256sum" = "__MD5HASH_AA0_SHA256SUM" ∧
      camel.convert (constant.convert "__md5hash_aa0_sha256sum") = "__md5hashAa0Sha256sum" ∧
      constant.convert (camel.convert (constant.convert "__md5hash_aa0_sha256sum")) =
        "__MD5HASH_AA0_SHA256SUM" := by
  intro ws
  have canonical : ∀ w ∈ ws, isCanonical w = true := by decide
  have name : String.ofList (List.replicate 2 '_' ++ joined ['_'] ws) =
      "__md5hash_aa0_sha256sum" := by decide
  have loud : constant.convert "__md5hash_aa0_sha256sum" = "__MD5HASH_AA0_SHA256SUM" := by decide
  have humps : camel.convert "__md5hash_aa0_sha256sum" = "__md5hashAa0Sha256sum" := by decide
  obtain ⟨forgets, restores⟩ := convert_canonical 2 canonical constant camel
  rw [name, humps] at forgets
  rw [name, loud] at restores
  exact ⟨canonical, name, loud, forgets, by rw [loud]; exact restores⟩

end DataAccess.Casing
