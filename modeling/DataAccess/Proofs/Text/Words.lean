import DataAccess.Casing
import Mathlib.Data.List.Basic

/-!
Which words a text is cut into. Together they are the text without its separators. A word of one case
goes on up to a separator, and a capital after small letters begins a new one.
-/
namespace DataAccess.Casing
open Text

theorem startsWord_of_not_upper {c : Char} (h : isUpper c = false) (current : List Char)
    (next : Option Char) : startsWord current c next = false := by
  cases current <;> simp [startsWord, h]

/-- Without small letters before and after it, a character goes on with the word. -/
theorem startsWord_of_not_lower {current : List Char} {next : Option Char}
    (hc : ∀ d ∈ current, isLower d = false) (hn : next.any isLower = false) (c : Char) :
    startsWord current c next = false := by
  have none : current.any isLower = false := by simpa using hc
  cases current with
  | nil => rfl
  | cons p current =>
    have hp : isLower p = false := hc p List.mem_cons_self
    simp [startsWord, none, hn, hp]

/-- The unfinished word of a text in which no capital begins a word. -/
theorem wordsFrom_append_of_not_upper {w : List Char}
    (h : ∀ c ∈ w, isSeparator c = false ∧ isUpper c = false) (current rest : List Char) :
    wordsFrom current (w ++ rest) = wordsFrom (w.reverse ++ current) rest := by
  induction w generalizing current with
  | nil => rfl
  | cons c w ih =>
    obtain ⟨hs, hu⟩ := h c List.mem_cons_self
    have rest_ok : ∀ d ∈ w, isSeparator d = false ∧ isUpper d = false :=
      fun d hd => h d (List.mem_cons_of_mem c hd)
    rw [List.cons_append, wordsFrom, hs, startsWord_of_not_upper hu]
    simpa using ih rest_ok (c :: current)

/-- A text without small letters goes on with a word that has none, up to a separator. -/
theorem wordsFrom_append_of_not_lower {w current rest : List Char}
    (h : ∀ c ∈ w, isSeparator c = false ∧ isLower c = false)
    (hc : ∀ c ∈ current, isLower c = false) (hr : rest.head?.any isLower = false) :
    wordsFrom current (w ++ rest) = wordsFrom (w.reverse ++ current) rest := by
  induction w generalizing current with
  | nil => rfl
  | cons c w ih =>
    obtain ⟨hs, hl⟩ := h c List.mem_cons_self
    have rest_ok : ∀ d ∈ w, isSeparator d = false ∧ isLower d = false :=
      fun d hd => h d (List.mem_cons_of_mem c hd)
    have next : (w ++ rest).head?.any isLower = false := by
      cases w with
      | nil => exact hr
      | cons d w => exact (rest_ok d List.mem_cons_self).2
    have grown : ∀ d ∈ c :: current, isLower d = false := by
      rw [List.forall_mem_cons]
      exact ⟨hl, hc⟩
    rw [List.cons_append, wordsFrom, hs, startsWord_of_not_lower hc next]
    simpa using ih rest_ok grown

theorem startsWord_congr {next other : Option Char} (h : next.any isLower = other.any isLower)
    (current : List Char) (c : Char) : startsWord current c next = startsWord current c other := by
  cases current <;> simp [startsWord, h]

/-- A separator ends the unfinished word. -/
theorem wordsFrom_append {separator : Char} (hs : isSeparator separator = true)
    (hl : isLower separator = false) (current s rest : List Char) :
    wordsFrom current (s ++ separator :: rest) = wordsFrom current s ++ words rest := by
  induction s generalizing current with
  | nil =>
    rw [List.nil_append, wordsFrom, wordsFrom, if_pos hs]
    rfl
  | cons c s ih =>
    have next : (s ++ separator :: rest).head?.any isLower = s.head?.any isLower := by
      cases s with
      | nil => exact hl
      | cons d s => rfl
    rw [List.cons_append, wordsFrom, wordsFrom, startsWord_congr next]
    split_ifs
    · rw [ih, List.append_assoc]
    · rw [ih, List.cons_append]
    · exact ih _

def Separates (c : Char) : Prop := c = '_' ∨ c = '-' ∨ isBlank c = true

instance : DecidablePred Separates := fun _ => inferInstanceAs (Decidable (_ ∨ _ ∨ _))

theorem isSeparator_eq (c : Char) : isSeparator c = decide (Separates c) := by
  rw [Bool.eq_iff_iff, decide_eq_true_iff]
  simp [isSeparator, Separates, or_assoc]

def kept (s : List Char) : List Char := s.filter (¬ Separates ·)

theorem mem_kept {s : List Char} {c : Char} : c ∈ kept s ↔ c ∈ s ∧ ¬ Separates c := by
  simp [kept]

@[simp] theorem kept_append (s t : List Char) : kept (s ++ t) = kept s ++ kept t :=
  List.filter_append s t

theorem kept_cons_of_separates {c : Char} (h : Separates c) (s : List Char) :
    kept (c :: s) = kept s :=
  List.filter_cons_of_neg (by simpa using h)

theorem kept_cons {c : Char} (h : ¬ Separates c) (s : List Char) : kept (c :: s) = c :: kept s :=
  List.filter_cons_of_pos (by simpa using h)

theorem flatten_flush (current : List Char) : (flush current).flatten = current.reverse := by
  cases current <;> simp [flush]

/-- While a text is read, the characters so far are those of the words so far and of the unfinished
one, which is read backwards. Which words these are depends on the first character of `rest`. -/
theorem exists_unfinished (current before rest : List Char) :
    ∃ earlier unfinished,
      wordsFrom current (before ++ rest) = earlier ++ wordsFrom unfinished rest ∧
        earlier.flatten ++ unfinished.reverse = current.reverse ++ kept before := by
  induction before generalizing current with
  | nil => exact ⟨[], current, rfl, by simp [kept]⟩
  | cons c before ih =>
    rw [List.cons_append, wordsFrom, isSeparator_eq]
    split_ifs with separates starts
    · obtain ⟨earlier, unfinished, read, same⟩ := ih []
      refine ⟨flush current ++ earlier, unfinished, by rw [read, List.append_assoc], ?_⟩
      rw [List.flatten_append, flatten_flush, List.append_assoc, same,
        kept_cons_of_separates (by simpa using separates)]
      rfl
    · obtain ⟨earlier, unfinished, read, same⟩ := ih [c]
      refine ⟨current.reverse :: earlier, unfinished, by rw [read, List.cons_append], ?_⟩
      rw [List.flatten_cons, List.append_assoc, same, kept_cons (by simpa using separates)]
      rfl
    · obtain ⟨earlier, unfinished, read, same⟩ := ih (c :: current)
      refine ⟨earlier, unfinished, read, ?_⟩
      rw [same, kept_cons (by simpa using separates)]
      simp

/-- The words have the characters of the text but its separators, in their order. -/
theorem flatten_words (s : List Char) : (words s).flatten = kept s := by
  obtain ⟨earlier, unfinished, read, same⟩ := exists_unfinished [] s []
  rw [List.append_nil] at read
  rw [words, read, wordsFrom, List.flatten_append, flatten_flush, same]
  rfl

theorem mem_kept_of_mem_words {s w : List Char} {c : Char} (hw : w ∈ words s) (hc : c ∈ w) :
    c ∈ kept s := by
  rw [← flatten_words]
  exact List.mem_flatten.mpr ⟨w, hw, hc⟩

/-- Words have no other characters than the text. -/
theorem mem_of_mem_words {s w : List Char} {d : Char} (hw : w ∈ words s) (hd : d ∈ w) : d ∈ s :=
  (mem_kept.mp (mem_kept_of_mem_words hw hd)).1

/-- Nothing in a word separates words. -/
theorem unseparated_of_mem_words {s w : List Char} (hw : w ∈ words s) :
    ∀ c ∈ w, isSeparator c = false := by
  intro c hc
  rw [isSeparator_eq, decide_eq_false_iff_not]
  exact (mem_kept.mp (mem_kept_of_mem_words hw hc)).2

theorem ne_nil_of_mem_flush {current w : List Char} (h : w ∈ flush current) : w ≠ [] := by
  cases current with
  | nil => contradiction
  | cons c current =>
    rw [List.mem_singleton.mp h]
    simp

theorem ne_nil_of_mem_wordsFrom {current s w : List Char} (hw : w ∈ wordsFrom current s) :
    w ≠ [] := by
  induction s generalizing current with
  | nil => exact ne_nil_of_mem_flush hw
  | cons c s ih =>
    rw [wordsFrom] at hw
    split_ifs at hw with separates starts
    · exact (List.mem_append.mp hw).elim ne_nil_of_mem_flush ih
    · rcases List.mem_cons.mp hw with rfl | hw
      · rintro none
        rw [List.reverse_eq_nil_iff.mp none] at starts
        contradiction
      · exact ih hw
    · exact ih hw

/-- The words that a text is cut into are not empty. -/
theorem ne_nil_of_mem_words {s w : List Char} (hw : w ∈ words s) : w ≠ [] :=
  ne_nil_of_mem_wordsFrom hw

/-- A word in which nothing begins another one: it is not empty, has no separators, and its
letters are of one case. -/
structure IsWhole (w : List Char) : Prop where
  ne_nil : w ≠ []
  unseparated : ∀ c ∈ w, isSeparator c = false
  one_case : (∀ c ∈ w, isUpper c = false) ∨ ∀ c ∈ w, isLower c = false

theorem IsWhole.wordsFrom {w rest : List Char} (h : IsWhole w)
    (hr : rest.head?.any isLower = false) :
    wordsFrom [] (w ++ rest) = wordsFrom w.reverse rest := by
  rcases h.one_case with hu | hl
  · simpa using wordsFrom_append_of_not_upper (fun c hc => ⟨h.unseparated c hc, hu c hc⟩) [] rest
  · have small : ∀ c ∈ w, isSeparator c = false ∧ isLower c = false :=
      fun c hc => ⟨h.unseparated c hc, hl c hc⟩
    simpa using wordsFrom_append_of_not_lower small (List.forall_mem_nil _) hr

/-- It does not begin with a separator. -/
theorem IsWhole.head?_ne {w : List Char} (h : IsWhole w) : w.head? ≠ some '_' := by
  intro mark
  exact absurd (h.unseparated _ (List.mem_of_mem_head? mark)) (by decide)

/-- Separators before the first word are left out. -/
theorem words_dropWhile (s : List Char) : words (s.dropWhile (· = '_')) = words s := by
  induction s with
  | nil => rfl
  | cons c s ih =>
    by_cases hc : c = '_'
    · rw [List.dropWhile_cons_of_pos (by simpa using hc), ih, hc]
      rfl
    · rw [List.dropWhile_cons_of_neg (by simpa using hc)]

theorem flush_reverse {w : List Char} (h : w ≠ []) : flush w.reverse = [w] := by
  simp [flush, h]

/-- Words of one case between separators are read off again. -/
theorem words_joined {separator : Char} (hs : isSeparator separator = true)
    (hl : isLower separator = false) {ws : List (List Char)} (h : ∀ w ∈ ws, IsWhole w) :
    words (joined [separator] ws) = ws := by
  induction ws using joined.induct with
  | case1 => rfl
  | case2 w =>
    have hw : IsWhole w := h w List.mem_cons_self
    calc words w = wordsFrom [] (w ++ []) := by rw [List.append_nil, words]
      _ = flush w.reverse := hw.wordsFrom rfl
      _ = [w] := flush_reverse hw.ne_nil
  | case3 w ws hne ih =>
    rw [List.forall_mem_cons] at h
    rw [joined]
    · calc words (w ++ [separator] ++ joined [separator] ws)
          = wordsFrom [] (w ++ separator :: joined [separator] ws) := by
            rw [List.append_assoc, words]
            rfl
        _ = wordsFrom w.reverse (separator :: joined [separator] ws) := h.1.wordsFrom hl
        _ = flush w.reverse ++ words (joined [separator] ws) := by
            rw [wordsFrom, if_pos hs, words]
        _ = w :: ws := by
            rw [flush_reverse h.1.ne_nil, ih h.2]
            rfl
    · exact hne

/-- A capital after the unfinished word, which is read backwards, begins another one. -/
def IsClosed (current : List Char) : Prop :=
  ∃ p before, current = p :: before ∧
    (isLower p = true ∨ p.isDigit = true ∧ current.any isLower = true)

theorem IsClosed.startsWord {current : List Char} (h : IsClosed current) {c : Char}
    (hc : isUpper c = true) (next : Option Char) : startsWord current c next = true := by
  obtain ⟨p, before, rfl, hp⟩ := h
  rcases hp with hp | ⟨hd, hl⟩
  · simp [Casing.startsWord, hc, hp]
  · simp [Casing.startsWord, hc, hd, hl]

theorem IsClosed.flush {current : List Char} (h : IsClosed current) :
    flush current = [current.reverse] := by
  obtain ⟨p, before, rfl, -⟩ := h
  rfl

end DataAccess.Casing
