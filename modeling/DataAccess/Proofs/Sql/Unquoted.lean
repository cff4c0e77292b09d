import DataAccess.Proofs.Sql.Names
import DataAccess.Proofs.Sql.Writing
import DataAccess.Proofs.Text.Words
import Mathlib.Data.List.TakeWhile

/-!
References without quotes. An exclamation mark takes the quotes from a name, and a value is bound as
it is without the mark. It does not go with arrows: what stands behind it is spelled as a name.
-/
namespace DataAccess
open Text

def Text.unquoted : List Char → List Char
  | '"' :: rest =>
    match cutFirst '"' rest with
    | some (name, after) => name ++ after
    | none => '"' :: rest
  | s => s

theorem Text.unquoted_append {s : List Char} (h : '"' ∉ s) (rest : List Char) :
    unquoted ('"' :: s ++ '"' :: rest) = s ++ rest := by
  rw [List.cons_append, unquoted, cutFirst_append h]

theorem Text.unquoted_of_not_mem {s : List Char} (h : '"' ∉ s) : unquoted s = s := by
  unfold unquoted
  split
  next => exact absurd List.mem_cons_self h
  next => rfl

namespace Naming
variable (n : Naming) {s : List Char}

theorem storageChars_of_undotted (raw : unmarked ':' s = none) (undotted : '.' ∉ s) :
    n.storageChars s = n.segment s := by
  rw [storageChars, raw, parts_of_not_mem undotted]
  rfl

/-- A name is quoted or has dots in it. -/
theorem unquoted_headChars (raw : unmarked ':' s = none) (plain : '"' ∉ s) {rest : List Char}
    (bare : '"' ∉ rest) : unquoted (n.headChars s ++ rest) = n.storageChars s ++ rest := by
  have name : '"' ∉ n.storageChars s :=
    n.not_mem_storageChars (by decide) (fun _ => by decide) (by decide) plain
  unfold headChars
  split_ifs with dotted
  · apply unquoted_of_not_mem
    rw [List.mem_append, not_or]
    exact ⟨name, bare⟩
  · have undotted : '.' ∉ s := fun h => dotted (List.contains_iff_mem.mpr h)
    rw [n.storageChars_of_undotted raw undotted] at name ⊢
    rw [List.append_assoc]
    exact unquoted_append name rest

theorem columnChars_marked (s : List Char) : n.columnChars ('!' :: s) = n.storageChars s := rfl

/-- A key that is neither raw SQL nor marked to be left without quotes. -/
structure Unmarked (s : List Char) : Prop where
  raw : unmarked ':' s = none
  bare : unmarked '!' s = none

theorem Unmarked.columnChars (h : Unmarked s) :
    n.columnChars s = if isPath s then n.pathChars (arrowParts s) else n.headChars s := by
  unfold Naming.columnChars
  rw [h.raw, h.bare]

theorem Unmarked.unquoted_name (h : Unmarked s) (plain : '"' ∉ s) (name : isPath s = false) :
    unquoted (n.columnChars s) = n.storageChars s := by
  have none : '"' ∉ ([] : List Char) := List.not_mem_nil
  have whole := n.unquoted_headChars h.raw plain none
  rw [List.append_nil, List.append_nil] at whole
  rw [h.columnChars, name]
  exact whole

/-- A path is a name, and then, for each arrow, what follows the arrow. -/
theorem isPath_cases (path : isPath s = true) : ∃ head step steps,
    arrowParts s = head :: step :: steps ∧
      s = head ++ (step :: steps).flatMap (['-', '>'] ++ ·) := by
  have whole := joined_arrowParts s
  rw [isPath, decide_eq_true_eq] at path
  rcases hs : arrowParts s with _ | ⟨head, _ | ⟨step, steps⟩⟩
  · exact absurd hs (arrowParts_ne_nil s)
  · rw [hs] at path
    exact absurd path (Nat.lt_irrefl 1)
  · rw [hs, joined_cons] at whole
    exact ⟨head, step, steps, rfl, whole.symm⟩

theorem unmarked_of_append {c : Char} {s t : List Char} (h : unmarked c (s ++ t) = none) :
    unmarked c s = none := by
  cases s with
  | nil => rfl
  | cons d s =>
    rw [List.cons_append, unmarked] at h
    rw [unmarked]
    split_ifs at h ⊢
    rfl

theorem Unmarked.unquoted_path (h : Unmarked s) (plain : '"' ∉ s) {head step : List Char}
    {steps : List (List Char)} (path : arrowParts s = head :: step :: steps)
    (whole : s = head ++ (step :: steps).flatMap (['-', '>'] ++ ·)) :
    unquoted (n.columnChars s) =
      n.storageChars head ++ (step :: steps).flatMap n.arrowChars := by
  have long : isPath s = true := by
    rw [isPath, path]
    rfl
  have plain_part : ∀ p ∈ arrowParts s, '"' ∉ p := fun p hp hq =>
    plain (mem_of_mem_arrowParts hp hq)
  rw [path, List.forall_mem_cons] at plain_part
  have bare : '"' ∉ (step :: steps).flatMap n.arrowChars := by
    intro hq
    obtain ⟨p, hp, hq⟩ := List.mem_flatMap.mp hq
    exact n.not_mem_arrowChars (by decide) (by decide) (plain_part.2 p hp) hq
  rw [h.columnChars, if_pos long, path, pathChars]
  exact n.unquoted_headChars (unmarked_of_append (whole ▸ h.raw)) plain_part.1 bare

/-- Conventions without dashes take them out of a name. -/
theorem dash_not_mem_storageChars (db : n.db ≠ .kebab) (raw : unmarked ':' s = none) :
    '-' ∉ n.storageChars s := by
  have part (p : List Char) : '-' ∉ n.segment p := by
    have marks : '-' ∉ p.takeWhile (· = '_') := fun h => by
      simpa using List.mem_takeWhile_imp h
    have humps : n.db = .kebab → '-' ≠ '-' := fun kebab => absurd kebab db
    have words : ∀ w ∈ Casing.words (p.dropWhile (· = '_')), ∀ c ∈ w, c ≠ '-' := by
      rintro w hw c hc rfl
      exact absurd (Casing.unseparated_of_mem_words hw '-' hc) (by decide)
    rw [segment_eq, Casing.convertChars, List.mem_append, not_or]
    exact ⟨marks, fun h => (caseStable_ne (by decide)).assemble (by decide) humps words '-' h rfl⟩
  rw [storageChars, raw]
  intro h
  rcases mem_joined h with h | ⟨p, hp, h⟩
  · exact absurd h (by decide)
  · obtain ⟨q, -, rfl⟩ := List.mem_map.mp hp
    exact part q h

def stepKey (step : List Char) : List Char := (unmarked '>' step).getD step

theorem arrowChars_of_isIndex {step : List Char} (h : isIndex (stepKey step) = true) :
    n.arrowChars step = ['-', '>'] ++ step := by
  unfold arrowChars
  unfold stepKey at h
  split
  next key hk =>
    rw [hk, Option.getD_some] at h
    rw [keyChars, if_pos h, unmarked_eq_some hk]
    rfl
  next hk =>
    rw [hk, Option.getD_none] at h
    rw [keyChars, if_pos h]
    rfl

theorem quote_mem_arrowChars {step : List Char} (h : isIndex (stepKey step) = false) :
    '\x27' ∈ n.arrowChars step := by
  unfold arrowChars
  unfold stepKey at h
  split
  next key hk =>
    rw [hk, Option.getD_some] at h
    simp [keyChars, h, literal]
  next hk =>
    rw [hk, Option.getD_none] at h
    simp [keyChars, h, literal]

/-- A word that a name is joined of as it is. -/
structure Inert (w : List Char) : Prop where
  whole : Casing.IsWhole w
  low : lowercase w = w
  undotted : '.' ∉ w

def isIndexChar (c : Char) : Bool := c = '>' || c = '+' || c.isDigit

theorem inert_of_isIndexChar {w : List Char} (nonempty : w ≠ [])
    (h : ∀ c ∈ w, isIndexChar c = true) : Inert w := by
  have ascii {c : Char} (hc : isIndexChar c = true) : c.toNat < 128 := by
    simp only [isIndexChar, Bool.or_eq_true, decide_eq_true_eq] at hc
    rcases hc with (rfl | rfl) | digit
    · decide
    · decide
    · exact Nat.lt_of_le_of_lt (Char.isDigit_iff_toNat.mp digit).2 (by decide)
  have plain {c : Char} (hc : isIndexChar c = true) : Casing.isSeparator c = false ∧
      isUpper c = false ∧ c.toLower = c ∧ c ≠ '.' :=
    forall_ascii (P := fun c => isIndexChar c = true → Casing.isSeparator c = false ∧
      isUpper c = false ∧ c.toLower = c ∧ c ≠ '.') (by decide) (ascii hc) hc
  refine ⟨⟨nonempty, fun c hc => (plain (h c hc)).1, .inl fun c hc => (plain (h c hc)).2.1⟩, ?_,
    fun dot => (plain (h '.' dot)).2.2.2 rfl⟩
  rw [lowercase_ascii fun c hc => ascii (h c hc), folded,
    List.map_congr_left fun c hc => (plain (h c hc)).2.2.1, List.map_id']

/-- The dashes of an index and of the arrow to it are dashes between words. -/
theorem inert_words {step : List Char} (h : isIndex (stepKey step) = true) :
    ∃ ws, ws ≠ [] ∧ (∀ w ∈ ws, Inert w) ∧
      ['-', '>'] ++ step = ws.flatMap (['-'] ++ ·) := by
  obtain ⟨mark, hm, hs⟩ : ∃ mark ∈ [['>'], ['>', '>']], '>' :: step = mark ++ stepKey step := by
    unfold stepKey
    cases hu : unmarked '>' step with
    | none => exact ⟨['>'], by decide, rfl⟩
    | some key => exact ⟨['>', '>'], by decide, by rw [unmarked_eq_some hu]; rfl⟩
  have marks : ∀ c ∈ mark, isIndexChar c = true := by
    have all : ∀ mark ∈ [['>'], ['>', '>']], mark.all isIndexChar = true := by decide
    exact List.all_eq_true.mp (all mark hm)
  have some_mark : mark ≠ [] := by
    rintro rfl
    simp at hm
  obtain ⟨sign, hsign, digits, hk, nonempty, numeric⟩ := isIndex_cases h
  have numbers : ∀ c ∈ digits, isIndexChar c = true := fun c hc => by
    simp [isIndexChar, numeric c hc]
  have whole : ['-', '>'] ++ step = '-' :: (mark ++ (sign ++ digits)) := by rw [← hk, ← hs]; rfl
  simp only [List.mem_cons, List.not_mem_nil, or_false] at hsign
  rcases hsign with rfl | rfl | rfl
  · refine ⟨[mark ++ digits], List.cons_ne_nil _ _, ?_, by simp [whole]⟩
    rw [List.forall_mem_singleton]
    exact inert_of_isIndexChar (by simp [some_mark]) (List.forall_mem_append.mpr ⟨marks, numbers⟩)
  · refine ⟨[mark, digits], List.cons_ne_nil _ _, ?_, by simp [whole]⟩
    rw [List.forall_mem_cons, List.forall_mem_singleton]
    exact ⟨inert_of_isIndexChar some_mark marks, inert_of_isIndexChar nonempty numbers⟩
  · refine ⟨[mark ++ '+' :: digits], List.cons_ne_nil _ _, ?_, by simp [whole]⟩
    rw [List.forall_mem_singleton]
    exact inert_of_isIndexChar (by simp) (List.forall_mem_append.mpr
      ⟨marks, List.forall_mem_cons.mpr ⟨rfl, numbers⟩⟩)

theorem inert_words_flatMap {steps : List (List Char)}
    (h : ∀ step ∈ steps, isIndex (stepKey step) = true) :
    ∃ ws, (steps ≠ [] → ws ≠ []) ∧ (∀ w ∈ ws, Inert w) ∧
      steps.flatMap (['-', '>'] ++ ·) = ws.flatMap (['-'] ++ ·) := by
  induction steps with
  | nil => exact ⟨[], fun none => none, List.forall_mem_nil _, rfl⟩
  | cons step steps ih =>
    obtain ⟨here, others⟩ := List.forall_mem_cons.mp h
    obtain ⟨first, nonempty, inert, hf⟩ := inert_words here
    obtain ⟨rest, -, inert_rest, hr⟩ := ih others
    refine ⟨first ++ rest, fun _ none => nonempty (List.append_eq_nil_iff.mp none).1,
      List.forall_mem_append.mpr ⟨inert, inert_rest⟩, ?_⟩
    rw [List.flatMap_cons, hf, hr, List.flatMap_append]

theorem marks_append_dash (s u : List Char) :
    (s ++ '-' :: u).takeWhile (· = '_') = s.takeWhile (· = '_') ∧
      (s ++ '-' :: u).dropWhile (· = '_') = s.dropWhile (· = '_') ++ '-' :: u := by
  induction s with
  | nil => exact ⟨rfl, rfl⟩
  | cons c s ih => by_cases hc : c = '_' <;> simp [hc, ih.1, ih.2]

/-- Words after dashes follow those of a name under the convention that has dashes. -/
theorem convertChars_dashed (s : List Char) {ws : List (List Char)} (nonempty : ws ≠ [])
    (inert : ∀ w ∈ ws, Inert w) :
    Casing.kebab.convertChars (s ++ ws.flatMap (['-'] ++ ·)) =
      Casing.kebab.convertChars s ++
        if Casing.words s = [] then joined ['-'] ws else ws.flatMap (['-'] ++ ·) := by
  have dashed : ws.flatMap (['-'] ++ ·) = '-' :: joined ['-'] ws := by
    obtain ⟨w, rest, rfl⟩ := List.exists_cons_of_ne_nil nonempty
    rw [joined_cons, List.flatMap_cons]
    rfl
  have read : Casing.words (joined ['-'] ws) = ws :=
    Casing.words_joined (by decide) (by decide) fun w hw => (inert w hw).whole
  have low : ws.map lowercase = ws := by
    rw [List.map_congr_left fun w hw => (inert w hw).low, List.map_id']
  obtain ⟨marks, body⟩ := marks_append_dash s (joined ['-'] ws)
  have words : Casing.words (s.dropWhile (· = '_') ++ '-' :: joined ['-'] ws) =
      Casing.words s ++ ws := by
    rw [← Casing.words_dropWhile s]
    conv_rhs => rw [← read]
    exact Casing.wordsFrom_append (by decide) (by decide) [] _ _
  rw [Casing.convertChars, Casing.convertChars, dashed, marks, body, words, Casing.words_dropWhile,
    Casing.assemble, Casing.assemble, List.map_append, low, List.append_assoc]
  congr 1
  split_ifs with none
  · rw [none]
    rfl
  · rw [joined_append (by simpa using none), dashed]

def lastPart (s : List Char) : List Char := (parts '.' s).getLast (parts_ne_nil '.' s)

/-- The same words after a name with dots. -/
theorem storageChars_dashed (db : n.db = .kebab) (s : List Char) {ws : List (List Char)}
    (nonempty : ws ≠ []) (inert : ∀ w ∈ ws, Inert w)
    (raw : unmarked ':' (s ++ ws.flatMap (['-'] ++ ·)) = none) :
    n.storageChars (s ++ ws.flatMap (['-'] ++ ·)) = n.storageChars s ++
      if Casing.words (lastPart s) = [] then joined ['-'] ws else ws.flatMap (['-'] ++ ·) := by
  have undotted : '.' ∉ ws.flatMap (['-'] ++ ·) := by
    intro dot
    obtain ⟨w, hw, dot⟩ := List.mem_flatMap.mp dot
    rcases List.mem_append.mp dot with dot | dot
    · exact absurd dot (by decide)
    · exact (inert w hw).undotted dot
  obtain ⟨ps, p, hs, ht⟩ := parts_append_last undotted s
  have last : lastPart s = p := by
    simp [lastPart, hs]
  rw [storageChars, storageChars, raw, unmarked_of_append raw]
  dsimp only
  rw [ht, hs, List.map_append, List.map_append, List.map_singleton, List.map_singleton,
    segment_eq, segment_eq, db, convertChars_dashed p nonempty inert, joined_concat_append, last]

def IndexPath (s : List Char) : Prop :=
  ∃ head steps, arrowParts s = head :: steps ∧ Casing.words (lastPart head) ≠ [] ∧
    ∀ step ∈ steps, isIndex (stepKey step) = true

/-- The steps to indices as they are written, and as words after dashes. -/
theorem arrowChars_indices {steps : List (List Char)}
    (h : ∀ step ∈ steps, isIndex (stepKey step) = true) :
    steps.flatMap n.arrowChars = steps.flatMap (['-', '>'] ++ ·) :=
  List.flatMap_congr fun step hm => n.arrowChars_of_isIndex (h step hm)

/-- A path that is spelled as a name keeps its arrows only if dashes stay, no step has quotes, and
a word stands before the first dash. -/
theorem storageChars_path (h : Unmarked s) (plain : '"' ∉ s ∧ '\x27' ∉ s)
    (path : isPath s = true) :
    n.storageChars s = unquoted (n.columnChars s) ↔ n.db = .kebab ∧ IndexPath s := by
  obtain ⟨head, step, steps, hs, whole⟩ := isPath_cases path
  rw [h.unquoted_path n plain.1 hs whole]
  have spelled (db : n.db = .kebab)
      (indices : ∀ p ∈ step :: steps, isIndex (stepKey p) = true) : ∃ ws, ws ≠ [] ∧
      (step :: steps).flatMap n.arrowChars = ws.flatMap (['-'] ++ ·) ∧
      n.storageChars s = n.storageChars head ++
        if Casing.words (lastPart head) = [] then joined ['-'] ws
        else ws.flatMap (['-'] ++ ·) := by
    obtain ⟨ws, some_word, inert, dashed⟩ := inert_words_flatMap indices
    have nonempty := some_word (List.cons_ne_nil step steps)
    refine ⟨ws, nonempty, (n.arrowChars_indices indices).trans dashed, ?_⟩
    rw [dashed] at whole
    conv_lhs => rw [whole]
    exact n.storageChars_dashed db head nonempty inert (whole ▸ h.raw)
  constructor
  · intro same
    have db : n.db = .kebab := by
      by_contra other
      have dash : '-' ∈ n.storageChars head ++ (step :: steps).flatMap n.arrowChars := by
        apply List.mem_append_right
        rw [List.flatMap_cons]
        apply List.mem_append_left
        unfold arrowChars
        split <;> exact List.mem_cons_self
      exact n.dash_not_mem_storageChars other h.raw (same ▸ dash)
    have indices : ∀ p ∈ step :: steps, isIndex (stepKey p) = true := by
      intro p hp
      by_contra other
      have quote : '\x27' ∈ n.storageChars head ++ (step :: steps).flatMap n.arrowChars :=
        List.mem_append_right _ (List.mem_flatMap.mpr
          ⟨p, hp, n.quote_mem_arrowChars (Bool.eq_false_iff.mpr other)⟩)
      exact n.not_mem_storageChars (by decide) (fun _ => by decide) (by decide) plain.2
        (same ▸ quote)
    refine ⟨db, head, step :: steps, hs, fun none => ?_, indices⟩
    obtain ⟨ws, nonempty, arrows, words⟩ := spelled db indices
    -- without a word the first dash is lost
    rw [words, arrows, if_pos none, List.append_cancel_left_eq] at same
    obtain ⟨w, ws, rfl⟩ := List.exists_cons_of_ne_nil nonempty
    have lengths := congrArg List.length same
    rw [joined_cons, List.flatMap_cons] at lengths
    simp at lengths
  · rintro ⟨db, head', steps', hs', some_word, indices⟩
    rw [hs] at hs'
    obtain ⟨rfl, rfl⟩ := List.cons.inj hs'
    obtain ⟨ws, -, arrows, words⟩ := spelled db indices
    rw [words, arrows, if_neg some_word]

end Naming

theorem params_membership (target other : String) (comparer : Comparer) (items : List Json)
    (slot : Slot) : (membership target comparer items slot).params =
      (membership other comparer items slot).params := by
  unfold membership
  split_ifs <;> simp [Sql.params_append]

theorem params_comparison (target other : String) (comparer : Comparer) (v : Json) (slot : Slot) :
    (comparison target comparer v slot).params = (comparison other comparer v slot).params := by
  cases v with
  | array items =>
    unfold comparison
    dsimp only
    split_ifs
    · rfl
    · exact params_membership target other comparer items slot
  | _ => rfl

namespace Dialect
variable (d : Dialect) (table : String) {k : String}

theorem slot_marked (h : Naming.Unmarked k.toList) : d.slot table ("!" ++ k) = d.slot table k := by
  have marked : ("!" ++ k).toList = '!' :: k.toList := by
    rw [String.toList_append]
    rfl
  unfold slot
  rw [marked]
  dsimp only
  rw [h.raw, h.bare]
  rfl

/-- The mark does not change what is bound. -/
theorem leaf_marked (h : Naming.Unmarked k.toList) (comparer : Comparer) (operand : Operand) :
    (d.leaf table ("!" ++ k) comparer operand).map Sql.params =
      (d.leaf table k comparer operand).map Sql.params := by
  cases operand with
  | column other =>
    unfold leaf
    dsimp only
    split_ifs <;> rfl
  | value v =>
    unfold leaf
    dsimp only
    rw [d.slot_marked table h]
    split_ifs
    · cases comparer <;> rfl
    · cases comparer with
      | contains | notContains | arrayContains => rfl
      | _ => exact congrArg Except.ok (params_comparison _ _ _ v _)

end Dialect

theorem Compiler.leaf_marked (d : Dialect) (table : String) {k : String}
    (h : Naming.Unmarked k.toList) (comparer : Comparer) (operand : Operand)
    (params : List Json) :
    ((leaf d table ("!" ++ k) comparer operand).run params).map Prod.snd =
      ((leaf d table k comparer operand).run params).map Prod.snd := by
  have bound (layout : Except Error Sql) :
      ((ofLayout layout).run params).map Prod.snd = (layout.map Sql.params).map (params ++ ·) := by
    rw [run_ofLayout]
    cases layout <;> rfl
  rw [leaf_eq, leaf_eq, bound, bound, d.leaf_marked table h]

/-- A key behind an exclamation mark is bound as it is without the mark. Without arrows its
reference is the same but for the quotes around its head. With arrows it is spelled as a name, which
gives the same only for a path to indices under the convention that has dashes. -/
theorem marked_reference (d : Dialect) (table : String) {k : String}
    (unmarked : Naming.Unmarked k.toList) (plain : '"' ∉ k.toList ∧ '\x27' ∉ k.toList) :
    let marked := "!" ++ k
    d.slot table marked = d.slot table k ∧
    (∀ comparer operand, (d.leaf table marked comparer operand).map Sql.params =
      (d.leaf table k comparer operand).map Sql.params) ∧
    (∀ comparer operand params,
      ((Compiler.leaf d table marked comparer operand).run params).map Prod.snd =
        ((Compiler.leaf d table k comparer operand).run params).map Prod.snd) ∧
    (Naming.isPath k.toList = false →
      (d.naming.column marked).toList = unquoted (d.naming.column k).toList) ∧
    (Naming.isPath k.toList = true →
      ((d.naming.column marked).toList = unquoted (d.naming.column k).toList ↔
        d.naming.db = .kebab ∧ Naming.IndexPath k.toList)) := by
  intro marked
  have bare : (d.naming.column marked).toList = d.naming.storageChars k.toList := by
    rw [Naming.column, String.toList_ofList, String.toList_append]
    exact d.naming.columnChars_marked k.toList
  have own : (d.naming.column k).toList = d.naming.columnChars k.toList := by
    rw [Naming.column, String.toList_ofList]
  rw [bare, own]
  refine ⟨d.slot_marked table unmarked, d.leaf_marked table unmarked,
    Compiler.leaf_marked d table unmarked, fun name => ?_, fun path => ?_⟩
  · exact (unmarked.unquoted_name d.naming plain.1 name).symm
  · exact d.naming.storageChars_path unmarked plain path

/-- A name, a path that is spelled otherwise, and one that is not. -/
theorem marked_reference_pages :
    let d : Dialect := ⟨{}, "id", []⟩
    let dashed : Dialect := ⟨{ db := .kebab }, "id", []⟩
    (d.naming.column "!pageCount").toList = unquoted (d.naming.column "pageCount").toList ∧
      (d.naming.column "!pageData->0").toList ≠
        unquoted (d.naming.column "pageData->0").toList ∧
      d.slot "users" "!pageData->0" = d.slot "users" "pageData->0" ∧
      (dashed.naming.column "!pageData->0").toList =
        unquoted (dashed.naming.column "pageData->0").toList := by
  intro d dashed
  have name : Naming.Unmarked "pageCount".toList := ⟨by decide, by decide⟩
  have path : Naming.Unmarked "pageData->0".toList := ⟨by decide, by decide⟩
  obtain ⟨-, -, -, same, -⟩ := marked_reference d "users" name ⟨by decide, by decide⟩
  obtain ⟨slot, -, -, -, other⟩ := marked_reference d "users" path ⟨by decide, by decide⟩
  obtain ⟨-, -, -, -, kept⟩ := marked_reference dashed "users" path ⟨by decide, by decide⟩
  have index : Naming.IndexPath "pageData->0".toList :=
    ⟨"pageData".toList, [['0']], by decide, by decide, by decide⟩
  refine ⟨same (by decide), fun equal => ?_, slot, (kept (by decide)).mpr ⟨rfl, index⟩⟩
  have snake := ((other (by decide)).mp equal).1
  contradiction

/-- With a mark the path is compared as a document, but it is not the path that is compared. -/
theorem marked_reference_settings :
    let spec : Spec := { table := "users", conditions := [.leaf "!settings->theme" .eq
      (.value (.string "dark"))] }
    let unmarked : Spec := { table := "users", conditions := [.leaf "settings->theme" .eq
      (.value (.string "dark"))] }
    ((compile spec {} []).toOption = some
        ⟨"SELECT * FROM users WHERE settings_>theme = $1::jsonb", [.string "\"dark\""]⟩) ∧
      (compile unmarked {} []).toOption = some
        ⟨"SELECT * FROM users WHERE \"settings\"->'theme' = $1::jsonb", [.string "\"dark\""]⟩ ∧
      unquoted "\"settings\"->'theme'".toList = "settings->'theme'".toList := by
  decide +kernel

end DataAccess
