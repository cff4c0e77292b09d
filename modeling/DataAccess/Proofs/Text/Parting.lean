import DataAccess.Proofs.Text.Words

/-!
Where the words of a text end. Each character that is no separator stands in one word, and words are
told apart by their numbers. Neighbours are in different words exactly where the case tells, which
after a digit depends on what the word has so far.
-/
namespace DataAccess
namespace Text
variable {α : Type}

/-- The number of the part that has place `k` of all parts together, and the place in that part. -/
def locate : List (List α) → Nat → Nat × Nat
  | [], k => (0, k)
  | part :: parts, k =>
    if k < part.length then (0, k) else (locate parts (k - part.length)).map (· + 1) id

theorem locate_append (earlier later : List (List α)) (k : Nat) :
    locate (earlier ++ later) (earlier.flatten.length + k) =
      ((locate later k).1 + earlier.length, (locate later k).2) := by
  induction earlier with
  | nil => simp
  | cons part earlier ih =>
    have further : ¬ part.length + earlier.flatten.length + k < part.length := by omega
    have rest : part.length + earlier.flatten.length + k - part.length =
        earlier.flatten.length + k := by omega
    rw [List.cons_append, List.flatten_cons, List.length_append, locate, if_neg further, rest, ih]
    rfl

theorem locate_of_lt {part : List α} {j : Nat} (h : j < part.length)
    (earlier later : List (List α)) :
    locate (earlier ++ part :: later) (earlier.flatten.length + j) = (earlier.length, j) := by
  rw [locate_append, locate, if_pos h]
  simp

/-- The first parts have the first places. -/
theorem locate_lt_iff (earlier later : List (List α)) (k : Nat) :
    (locate (earlier ++ later) k).1 < earlier.length ↔ k < earlier.flatten.length := by
  induction earlier generalizing k with
  | nil => simp
  | cons part earlier ih =>
    rw [List.cons_append, locate]
    split_ifs with here
    · simp
      omega
    · have rest := ih (k - part.length)
      simp only [Prod.map_fst, List.length_cons, List.flatten_cons, List.length_append] at rest ⊢
      omega

theorem drop_eq_cons {s : List α} {i : Nat} {x : α} (h : s[i]? = some x) :
    s.drop i = x :: s.drop (i + 1) := by
  rw [List.drop_eq_getElem?_toList_append, h]
  rfl

end Text

namespace Casing
open Text

/-- Where the words of a text have its character at place `i`: the number of the word, and the place
in that word. As many characters stand before it in words as the text has before it. -/
def wordPlace (s : List Char) (i : Nat) : Nat × Nat := locate (words s) (kept (s.take i)).length

def wordAt (s : List Char) (i : Nat) : Nat := (wordPlace s i).1

/-- The word that has the character at place `i` of a text, up to this character. -/
def upTo (s : List Char) (i : Nat) : List Char :=
  ((words s)[wordAt s i]?.getD []).take ((wordPlace s i).2 + 1)

/-- Of what is read before a separator nothing is in a word with what follows it. -/
theorem exists_words_append {z : Char} (hz : Separates z) (before rest : List Char) :
    ∃ earlier, words (before ++ z :: rest) = earlier ++ words rest ∧
      earlier.flatten = kept before := by
  obtain ⟨earlier, unfinished, read, same⟩ := exists_unfinished [] before (z :: rest)
  refine ⟨earlier ++ flush unfinished, ?_, ?_⟩
  · rw [words, read, wordsFrom, isSeparator_eq, if_pos (by simpa using hz), List.append_assoc,
      words]
  · rw [List.flatten_append, flatten_flush, same]
    rfl

/-- Any other character is the last one of the unfinished word, once it has been read. -/
theorem exists_words_cons {x : Char} (hx : ¬ Separates x) (before rest : List Char) :
    ∃ earlier front, words (before ++ x :: rest) = earlier ++ wordsFrom (x :: front) rest ∧
      earlier.flatten ++ front.reverse = kept before := by
  obtain ⟨earlier, unfinished, read, same⟩ := exists_unfinished [] before (x :: rest)
  rw [wordsFrom, isSeparator_eq, if_neg (by simpa using hx)] at read
  split_ifs at read with starts
  · refine ⟨earlier ++ [unfinished.reverse], [], ?_, ?_⟩
    · rw [words, read, List.append_assoc, List.singleton_append]
    · rw [List.flatten_append, List.flatten_singleton, same]
      simp
  · exact ⟨earlier, unfinished, read, same⟩

/-- The unfinished word goes on as the first of the words that are still to come. -/
theorem exists_wordsFrom {current : List Char} (h : current ≠ []) (s : List Char) :
    ∃ tail later, wordsFrom current s = (current.reverse ++ tail) :: later := by
  induction s generalizing current with
  | nil => exact ⟨[], [], by simp [wordsFrom, flush, h]⟩
  | cons c s ih =>
    rw [wordsFrom]
    split_ifs with separates starts
    · exact ⟨[], words s, by simp [flush, h, words]⟩
    · exact ⟨[], wordsFrom [c] s, by simp⟩
    · obtain ⟨tail, later, goes_on⟩ := ih (List.cons_ne_nil c current)
      exact ⟨c :: tail, later, by simp [goes_on]⟩

/-- The character `x` at place `i` of a text is in the word behind `earlier`, and there behind
`front`. -/
structure Stands (s : List Char) (i : Nat) (x : Char) (earlier : List (List Char))
    (front : List Char) : Prop where
  in_word : ∃ tail later, words s = earlier ++ (front ++ x :: tail) :: later
  ahead : earlier.flatten ++ front = kept (s.take i)

namespace Stands
variable {s front : List Char} {i : Nat} {x : Char} {earlier : List (List Char)}

theorem wordPlace_eq (h : Stands s i x earlier front) :
    wordPlace s i = (earlier.length, front.length) := by
  obtain ⟨tail, later, here⟩ := h.in_word
  have inside : front.length < (front ++ x :: tail).length := by simp
  rw [wordPlace, ← h.ahead, List.length_append, here, locate_of_lt inside]

theorem wordAt_eq (h : Stands s i x earlier front) : wordAt s i = earlier.length := by
  rw [wordAt, h.wordPlace_eq]

theorem exists_word (h : Stands s i x earlier front) :
    ∃ tail, (words s)[wordAt s i]? = some (front ++ x :: tail) := by
  obtain ⟨tail, later, here⟩ := h.in_word
  exact ⟨tail, by simp [h.wordAt_eq, here]⟩

theorem upTo_eq (h : Stands s i x earlier front) : upTo s i = front ++ [x] := by
  obtain ⟨tail, word⟩ := h.exists_word
  rw [upTo, word, h.wordPlace_eq, Option.getD_some, List.take_length_add_append]
  rfl

end Stands

variable {s : List Char} {i j k : Nat} {x y z : Char}

theorem kept_take_succ (h : s[i]? = some x) (hx : ¬ Separates x) :
    kept (s.take (i + 1)) = kept (s.take i) ++ [x] := by
  rw [List.take_add_one, h, kept_append, Option.toList_some, kept_cons hx]
  rfl

theorem length_kept_take_le (s : List Char) (h : i ≤ j) :
    (kept (s.take i)).length ≤ (kept (s.take j)).length :=
  ((List.take_sublist_take_left h).filter _).length_le

/-- A character that separates nothing has a place in a word. -/
theorem exists_stands (h : s[i]? = some x) (hx : ¬ Separates x) :
    ∃ earlier front, Stands s i x earlier front := by
  obtain ⟨earlier, front, read, ahead⟩ := exists_words_cons hx (s.take i) (s.drop (i + 1))
  obtain ⟨tail, later, goes_on⟩ := exists_wordsFrom (List.cons_ne_nil x front) (s.drop (i + 1))
  rw [← drop_eq_cons h, List.take_append_drop] at read
  exact ⟨earlier, front.reverse, ⟨tail, later, by simp [read, goes_on]⟩, ahead⟩

/-- Of two neighbours the second one is the first character of the next word, or it follows the
other one in the same word. -/
theorem exists_stands_pair (hi : s[i]? = some x) (hj : s[i + 1]? = some y) (hx : ¬ Separates x)
    (hy : ¬ Separates y) :
    ∃ earlier front, Stands s i x earlier front.reverse ∧
      if startsWord (x :: front) y s[i + 2]? then
        Stands s (i + 1) y (earlier ++ [front.reverse ++ [x]]) []
      else Stands s (i + 1) y earlier (front.reverse ++ [x]) := by
  obtain ⟨earlier, front, read, ahead⟩ := exists_words_cons hx (s.take i) (s.drop (i + 1))
  rw [← drop_eq_cons hi, List.take_append_drop, drop_eq_cons hj, wordsFrom, isSeparator_eq,
    if_neg (by simpa using hy), List.head?_drop] at read
  have further : earlier.flatten ++ (front.reverse ++ [x]) = kept (s.take (i + 1)) := by
    rw [kept_take_succ hi hx, ← ahead, List.append_assoc]
  refine ⟨earlier, front, ?_⟩
  -- Both cases name the unfinished word, which has `x` last: it is finished, or it gets `y`.
  split_ifs at read ⊢ with starts
  · obtain ⟨tail, later, goes_on⟩ := exists_wordsFrom (List.cons_ne_nil y []) (s.drop (i + 2))
    constructor
    · exact ⟨⟨[], _, by simpa using read⟩, ahead⟩
    · exact ⟨⟨tail, later, by simp [read, goes_on]⟩, by simpa using further⟩
  · obtain ⟨tail, later, goes_on⟩ :=
      exists_wordsFrom (List.cons_ne_nil y (x :: front)) (s.drop (i + 2))
    constructor
    · exact ⟨⟨y :: tail, later, by simp [read, goes_on]⟩, ahead⟩
    · exact ⟨⟨tail, later, by simp [read, goes_on]⟩, further⟩

theorem startsWord_cons_iff {front : List Char} {next : Option Char} :
    startsWord (x :: front) y next = true ↔
      isUpper y = true ∧
        (isLower x = true ∨ (isUpper x = true ∧ next.any isLower = true) ∨
          (x.isDigit = true ∧ ∃ c ∈ front.reverse ++ [x], isLower c = true)) := by
  have some : (x :: front).any isLower = true ↔ ∃ c ∈ front.reverse ++ [x], isLower c = true := by
    simp [or_comm]
  simp only [startsWord, Bool.and_eq_true, Bool.or_eq_true, some]
  rw [or_right_comm, or_assoc]

/-- Neighbours are in different words where the case tells. -/
theorem wordAt_succ_ne_iff (hi : s[i]? = some x) (hj : s[i + 1]? = some y) (hx : ¬ Separates x)
    (hy : ¬ Separates y) :
    wordAt s i ≠ wordAt s (i + 1) ↔
      isUpper y = true ∧
        (isLower x = true ∨ (isUpper x = true ∧ s[i + 2]?.any isLower = true) ∨
          (x.isDigit = true ∧ ∃ c ∈ upTo s i, isLower c = true)) := by
  obtain ⟨earlier, front, first, second⟩ := exists_stands_pair hi hj hx hy
  rw [first.upTo_eq, ← startsWord_cons_iff, first.wordAt_eq]
  split_ifs at second with starts
  · simp [second.wordAt_eq, starts]
  · simp [second.wordAt_eq, starts]

/-- Characters with a separator between them are in different words. -/
theorem wordAt_lt (hi : i < k) (hj : k < j) (hx : s[i]? = some x) (hz : s[k]? = some z)
    (word : ¬ Separates x) (separates : Separates z) : wordAt s i < wordAt s j := by
  obtain ⟨earlier, parted, same⟩ :=
    exists_words_append separates (s.take k) (s.drop (k + 1))
  rw [← drop_eq_cons hz, List.take_append_drop] at parted
  have first : wordAt s i < earlier.length := by
    have before := length_kept_take_le s (show i + 1 ≤ k from hi)
    rw [kept_take_succ hx word, List.length_append, List.length_singleton] at before
    rw [wordAt, wordPlace, parted, locate_lt_iff, same]
    omega
  have second : ¬ wordAt s j < earlier.length := by
    have before := length_kept_take_le s (Nat.le_of_lt hj)
    rw [wordAt, wordPlace, parted, locate_lt_iff, same]
    omega
  omega

/-- The words of a text are not empty, have no separators, and are together the rest of the text.
Each character that is no separator is in one of them. Characters with a separator between them are
in different words. Neighbours are so exactly if the second one is a capital letter and the first
one is a small letter, is a capital letter when a small letter follows the two, or is a digit with a
small letter before it in its word. -/
theorem words_parted (s : List Char) :
    (∀ w ∈ words s, w ≠ [] ∧ ∀ c ∈ w, ¬ Separates c) ∧
      (words s).flatten = kept s ∧
      (∀ i x, s[i]? = some x → ¬ Separates x →
        ∃ w, (words s)[wordAt s i]? = some w ∧ upTo s i <+: w ∧ (upTo s i).getLast? = some x) ∧
      (∀ i k j x z, i < k → k < j → s[i]? = some x → s[k]? = some z → ¬ Separates x →
        Separates z → wordAt s i < wordAt s j) ∧
      ∀ i x y, s[i]? = some x → s[i + 1]? = some y → ¬ Separates x → ¬ Separates y →
        (wordAt s i ≠ wordAt s (i + 1) ↔
          isUpper y = true ∧
            (isLower x = true ∨ (isUpper x = true ∧ s[i + 2]?.any isLower = true) ∨
              (x.isDigit = true ∧ ∃ c ∈ upTo s i, isLower c = true))) := by
  refine ⟨fun w hw => ⟨ne_nil_of_mem_words hw, fun c hc => ?_⟩, flatten_words s, ?_, ?_, ?_⟩
  · exact (mem_kept.mp (mem_kept_of_mem_words hw hc)).2
  · intro i x hi hx
    obtain ⟨earlier, front, stands⟩ := exists_stands hi hx
    obtain ⟨tail, word⟩ := stands.exists_word
    refine ⟨_, word, ?_, ?_⟩
    · rw [stands.upTo_eq]
      exact ⟨tail, by simp⟩
    · rw [stands.upTo_eq, List.getLast?_concat]
  · intro i k j x z hi hj
    exact wordAt_lt hi hj
  · intro i x y hi hj
    exact wordAt_succ_ne_iff hi hj

/-- A digit ends a word before a capital only if small letters came before the digit. -/
theorem words_parted_digits :
    let s := "MD5Hash2Go-é1É".toList
    (s[2]? = some '5' ∧ s[3]? = some 'H' ∧ ¬ Separates '5' ∧ ¬ Separates 'H' ∧
        upTo s 2 = "MD5".toList ∧ wordAt s 2 = wordAt s 3) ∧
      (s[12]? = some '1' ∧ s[13]? = some 'É' ∧ ¬ Separates '1' ∧ ¬ Separates 'É' ∧
        upTo s 12 = "é1".toList ∧ wordAt s 12 ≠ wordAt s 13) ∧
      s[9]? = some 'o' ∧ s[10]? = some '-' ∧ ¬ Separates 'o' ∧ Separates '-' ∧
        wordAt s 9 < wordAt s 11 := by
  intro s
  obtain ⟨-, -, -, apart, neighbours⟩ := words_parted s
  have loud : upTo s 2 = "MD5".toList := by decide
  have soft : upTo s 12 = "é1".toList := by decide
  have shouted := neighbours 2 '5' 'H' (by decide) (by decide) (by decide) (by decide)
  have spoken := neighbours 12 '1' 'É' (by decide) (by decide) (by decide) (by decide)
  rw [loud] at shouted
  rw [soft] at spoken
  have together : wordAt s 2 = wordAt s 3 := by
    have silent : "MD5".toList.any isLower = false := by decide
    by_contra parted
    obtain ⟨-, small | ⟨capital, -⟩ | ⟨-, c, hc, small⟩⟩ := shouted.mp parted
    · exact absurd small (by decide)
    · exact absurd capital (by decide)
    · exact List.any_eq_false.mp silent c hc small
  have parted : wordAt s 12 ≠ wordAt s 13 := by
    apply spoken.mpr
    exact ⟨by decide, .inr (.inr ⟨by decide, 'é', by decide, by decide⟩)⟩
  have separated : wordAt s 9 < wordAt s 11 :=
    apart 9 10 11 'o' '-' (by decide) (by decide) (by decide) (by decide) (by decide) (by decide)
  exact ⟨⟨by decide, by decide, by decide, by decide, loud, together⟩,
    ⟨by decide, by decide, by decide, by decide, soft, parted⟩,
    by decide, by decide, by decide, by decide, separated⟩

end Casing
end DataAccess
