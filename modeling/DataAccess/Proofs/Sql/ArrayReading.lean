import DataAccess.Proofs.Text.Ascii
import DataAccess.Sql.ArrayText
import Mathlib.Tactic.SplitIfs

/-!
Reading the text of an array column, as a database does. The text that is written for a list is read
back as what the list holds. Whether the arrays inside an array are of one length is not looked at.
-/
namespace DataAccess.ArrayText

inductive Content where
  | null
  | text (s : List Char)
  | array (items : List Content)

inductive Place where
  /-- Before the outermost brace. -/
  | outside
  /-- After an opening brace. -/
  | opened
  /-- After a comma. -/
  | wanting
  /-- In an element without quotes, with the blanks after what has been read of it. A backslash
  marks it as a text. -/
  | bare (read blanks : List Char) (marked : Bool)
  | bareEscape (read : List Char)
  | quoted (read : List Char)
  | quotedEscape (read : List Char)
  /-- After an element. -/
  | complete
  /-- After the outermost brace. -/
  | finished (all : Content)

/-- A reader goes through the text once. Its levels are what it has read of the open arrays, the
innermost first. -/
structure Reader where
  place : Place
  levels : List (List Content)

def isSpace (c : Char) : Bool := c = ' ' || 9 ≤ c.toNat && c.toNat ≤ 13

/-- The word NULL in letters of either case, unless it is marked as a text. -/
def bareContent (s : List Char) (marked : Bool) : Content :=
  if !marked && s.map Char.toLower = ['n', 'u', 'l', 'l'] then .null else .text s

def add (e : Content) : List (List Content) → List (List Content)
  | [] => []
  | items :: outer => (items ++ [e]) :: outer

namespace Reader

def close : List (List Content) → Option Reader
  | [] => none
  | [items] => some ⟨.finished (.array items), []⟩
  | items :: outer => some ⟨.complete, add (.array items) outer⟩

def goOn (levels : List (List Content)) (c : Char) : Option Reader :=
  if c = ',' then some ⟨.wanting, levels⟩
  else if c = '}' then close levels
  else if isSpace c then some ⟨.complete, levels⟩
  else none

def start (levels : List (List Content)) (c : Char) : Option Reader :=
  if c = '{' then some ⟨.opened, [] :: levels⟩
  else if c = '"' then some ⟨.quoted [], levels⟩
  else if c = '\\' then some ⟨.bareEscape [], levels⟩
  else if c = ',' || c = '}' then none
  else some ⟨.bare [c] [] false, levels⟩

/-- One character. Characters out of place stop the reader. -/
def step (r : Reader) (c : Char) : Option Reader :=
  match r.place with
  | .outside =>
    if isSpace c then some r else if c = '{' then some ⟨.opened, [] :: r.levels⟩ else none
  | .opened =>
    if isSpace c then some r else if c = '}' then close r.levels else start r.levels c
  | .wanting => if isSpace c then some r else start r.levels c
  | .bare s blanks marked =>
    if c = ',' || c = '}' then goOn (add (bareContent s marked) r.levels) c
    else if c = '{' || c = '"' then none
    else if c = '\\' then some { r with place := .bareEscape (s ++ blanks) }
    else if isSpace c then some { r with place := .bare s (blanks ++ [c]) marked }
    else some { r with place := .bare (s ++ blanks ++ [c]) [] marked }
  | .bareEscape s => some { r with place := .bare (s ++ [c]) [] true }
  | .quoted s =>
    if c = '"' then some ⟨.complete, add (.text s) r.levels⟩
    else if c = '\\' then some { r with place := .quotedEscape s }
    else some { r with place := .quoted (s ++ [c]) }
  | .quotedEscape s => some { r with place := .quoted (s ++ [c]) }
  | .complete => goOn r.levels c
  | .finished _ => if isSpace c then some r else none

def read (r : Reader) (s : List Char) : Option Reader := s.foldlM step r

theorem read_nil (r : Reader) : r.read [] = some r := rfl

theorem read_cons (r : Reader) (c : Char) (s : List Char) :
    r.read (c :: s) = (r.step c).bind fun r => r.read s :=
  List.foldlM_cons

theorem read_append (r : Reader) (s t : List Char) :
    r.read (s ++ t) = (r.read s).bind fun r => r.read t :=
  List.foldlM_append

end Reader

/-- What a text stands for, if it is the text of an array. -/
def content? (s : String) : Option Content :=
  (Reader.read ⟨.outside, []⟩ s.toList).bind fun r =>
    match r.place with
    | .finished all => some all
    | _ => none

/-- Blanks, words and escapes in a text of another hand. -/
example : content? " \x7ba b , \"\" , nUlL,\\null, \x7b\"\\\"\"\x7d \x7d " = some (.array
    [.text ['a', ' ', 'b'], .text [], .null, .text ['n', 'u', 'l', 'l'],
      .array [.text ['"']]]) := by
  rfl

mutual
/-- A list is an array, null is NULL, and all else is a text: a string its own, anything else the
text that it has as JSON. -/
def contentOf : Json → Content
  | .null => .null
  | .array items => .array (contentsOf items)
  | .string s => .text s.toList
  | .object fields => .text (Json.object fields).chars
  | .number n => .text (Json.number n).chars
  | .bool b => .text (Json.bool b).chars
termination_by structural v => v

def contentsOf : List Json → List Content
  | [] => []
  | v :: rest => contentOf v :: contentsOf rest
termination_by structural items => items
end

namespace Reader

def Ready (r : Reader) : Prop := (r.place = .opened ∨ r.place = .wanting) ∧ r.levels ≠ []

/-- The reader goes on with a comma or a brace as if an element had just ended. -/
structure Settled (r : Reader) (levels : List (List Content)) : Prop where
  comma : r.step ',' = some ⟨.wanting, levels⟩
  brace : r.step '}' = close levels

theorem settled_complete (levels : List (List Content)) : Settled ⟨.complete, levels⟩ levels :=
  ⟨rfl, rfl⟩

/-- What an element begins with says how it is read. -/
theorem Ready.step {r : Reader} (h : r.Ready) {c : Char} (blank : isSpace c = false)
    (hc : c ≠ '}') : r.step c = start r.levels c := by
  obtain ⟨place, levels⟩ := r
  rcases h with ⟨rfl | rfl, -⟩
  · simp [Reader.step, blank, hc]
  · simp [Reader.step, blank]

end Reader

/-- These characters are one element, whatever stands before them. -/
def Denotes (s : List Char) (e : Content) : Prop :=
  ∀ r : Reader, r.Ready → ∃ r', r.read s = some r' ∧ r'.Settled (add e r.levels)

theorem read_escaped (s before : List Char) (levels : List (List Content)) :
    Reader.read ⟨.quoted before, levels⟩
        (s.flatMap fun c => if c = '\\' || c = '"' then ['\\', c] else [c]) =
      some ⟨.quoted (before ++ s), levels⟩ := by
  induction s generalizing before with
  | nil => simp [Reader.read_nil]
  | cons c s ih =>
    have rest := ih (before ++ [c])
    rw [List.append_assoc] at rest
    rw [List.flatMap_cons, Reader.read_append]
    split_ifs with h
    · -- the backslash takes the character that follows as it is
      simpa [Reader.read_cons, Reader.read_nil, Reader.step] using rest
    · simp only [Bool.or_eq_true, decide_eq_true_eq, not_or] at h
      simpa [Reader.read_cons, Reader.read_nil, Reader.step, h.1, h.2] using rest

/-- What is quoted is read as it was before. -/
theorem denotes_quoted (s : List Char) : Denotes (quoted s) (.text s) := by
  intro r ready
  refine ⟨⟨.complete, add (.text s) r.levels⟩, ?_, Reader.settled_complete _⟩
  have opening : r.step '"' = some ⟨.quoted [], r.levels⟩ := ready.step rfl (by decide)
  rw [quoted, List.cons_append, Reader.read_cons, opening, Option.bind_some, Reader.read_append,
    read_escaped]
  rfl

def isBare (c : Char) : Bool :=
  !isSpace c && c ≠ ',' && c ≠ '{' && c ≠ '}' && c ≠ '"' && c ≠ '\\'

theorem read_bare {s : List Char} (h : ∀ c ∈ s, isBare c = true) (before : List Char)
    (levels : List (List Content)) :
    Reader.read ⟨.bare before [] false, levels⟩ s = some ⟨.bare (before ++ s) [] false, levels⟩ := by
  induction s generalizing before with
  | nil => simp [Reader.read_nil]
  | cons c s ih =>
    have first := h c List.mem_cons_self
    simp only [isBare, Bool.and_eq_true, Bool.not_eq_true', decide_eq_true_eq] at first
    obtain ⟨⟨⟨⟨⟨space, comma⟩, opening⟩, closing⟩, quote⟩, backslash⟩ := first
    have rest := ih (fun d hd => h d (List.mem_cons_of_mem c hd)) (before ++ [c])
    rw [List.append_assoc] at rest
    simpa [Reader.read_cons, Reader.step, space, comma, opening, closing, quote, backslash]
      using rest

/-- A word without quotes is read as the word, or as NULL. -/
theorem denotes_bare {s : List Char} (hne : s ≠ []) (h : ∀ c ∈ s, isBare c = true) :
    Denotes s (bareContent s false) := by
  intro r ready
  refine ⟨⟨.bare s [] false, r.levels⟩, ?_, rfl, rfl⟩
  cases s with
  | nil => exact absurd rfl hne
  | cons c s =>
    have first := h c List.mem_cons_self
    simp only [isBare, Bool.and_eq_true, Bool.not_eq_true', decide_eq_true_eq] at first
    obtain ⟨⟨⟨⟨⟨space, comma⟩, opening⟩, closing⟩, quote⟩, backslash⟩ := first
    have hc : r.step c = some ⟨.bare [c] [] false, r.levels⟩ := by
      rw [ready.step space closing]
      simp [Reader.start, comma, opening, closing, quote, backslash]
    rw [Reader.read_cons, hc, Option.bind_some]
    exact read_bare (fun d hd => h d (List.mem_cons_of_mem c hd)) [c] r.levels

def isNumeric (c : Char) : Bool := c.isDigit || c = '-' || c = '+' || c = '.' || c = 'e'

abbrev Numeric (s : List Char) : Prop := ∀ c ∈ s, isNumeric c = true

theorem numeric_append {s t : List Char} (hs : Numeric s) (ht : Numeric t) : Numeric (s ++ t) := by
  rw [Numeric, List.forall_mem_append]
  exact ⟨hs, ht⟩

theorem numeric_cons {c : Char} {s : List Char} (hc : isNumeric c = true) (hs : Numeric s) :
    Numeric (c :: s) := by
  rw [Numeric, List.forall_mem_cons]
  exact ⟨hc, hs⟩

theorem Numeric.subset {s t : List Char} (ht : Numeric t) (h : s ⊆ t) : Numeric s :=
  fun c hc => ht c (h hc)

theorem numeric_toDigits (n : Nat) : Numeric (Nat.toDigits 10 n) := by
  intro c hc
  have digit : c.isDigit = true := Nat.isDigit_of_mem_toDigits (by decide) (by decide) hc
  simp [isNumeric, digit]

theorem numeric_zeros (n : Nat) : Numeric (Double.zeros n) := by
  intro c hc
  rw [List.eq_of_mem_replicate hc]
  rfl

theorem numeric_plain {digits : List Char} (h : Numeric digits) (lead : Int) :
    Numeric (Double.plain digits lead) := by
  unfold Double.plain
  dsimp only
  split_ifs
  · exact numeric_append (s := '0' :: '.' :: _)
      (numeric_cons rfl (numeric_cons rfl (numeric_zeros _))) h
  · exact numeric_append (numeric_append h (numeric_zeros _)) (List.all_eq_true.mp rfl)
  · apply numeric_append
    · exact h.subset (List.take_subset _ _)
    · exact numeric_cons rfl (h.subset (List.drop_subset _ _))

theorem numeric_scientific {digits : List Char} (h : Numeric digits) (lead : Int) :
    Numeric (Double.scientific digits lead) := by
  have exponent : Numeric ('e' :: (if lead < 0 then '-' else '+') ::
      Nat.toDigits 10 lead.natAbs) := by
    apply numeric_cons rfl
    apply numeric_cons _ (numeric_toDigits _)
    split_ifs
    · rfl
    · rfl
  have point : Numeric (if digits.length ≤ 1 then [] else '.' :: digits.drop 1) := by
    split_ifs
    · exact List.forall_mem_nil _
    · exact numeric_cons rfl (h.subset (List.drop_subset _ _))
  exact numeric_append (numeric_append (h.subset (List.take_subset _ _)) point) exponent

theorem numeric_double (x : Double) : Numeric x.chars := by
  unfold Double.chars
  apply numeric_append
  · split_ifs <;> exact List.all_eq_true.mp rfl
  · split_ifs with zero
    · exact List.all_eq_true.mp rfl
    · have digits : Numeric ((Nat.toDigits 10 x.shortest.digits).reverse.dropWhile
          (· = '0')).reverse := by
        intro c hc
        rw [List.mem_reverse] at hc
        have written := (List.dropWhile_sublist _).subset hc
        exact numeric_toDigits _ c (List.mem_reverse.mp written)
      dsimp only
      split_ifs
      · exact numeric_plain digits _
      · exact numeric_scientific digits _

/-- Numbers are written in characters of their own, and in at least one. -/
theorem numeric_number (n : Json.Number) : Numeric n.chars := by
  cases n with
  | whole i =>
    apply numeric_append
    · split_ifs <;> exact List.all_eq_true.mp rfl
    · exact numeric_toDigits _
  | float x => exact numeric_double x

theorem plain_ne_nil (digits : List Char) (lead : Int) : Double.plain digits lead ≠ [] := by
  unfold Double.plain
  dsimp only
  split_ifs <;> simp

theorem number_ne_nil (n : Json.Number) : n.chars ≠ [] := by
  cases n with
  | whole i => simp [Json.Number.chars, Nat.toDigits_ne_nil]
  | float x =>
    unfold Json.Number.chars Double.chars
    dsimp only
    split_ifs <;> simp [plain_ne_nil, Double.scientific]

theorem bare_of_numeric {c : Char} (h : isNumeric c = true) :
    isBare c = true ∧ c.toLower ≠ 'n' := by
  have small : c.toNat < 128 := by
    simp only [isNumeric, Bool.or_eq_true, decide_eq_true_eq] at h
    rcases h with (((digit | rfl) | rfl) | rfl) | rfl
    · have bounds := Char.isDigit_iff_toNat.mp digit
      exact Nat.lt_of_le_of_lt bounds.2 (by decide)
    all_goals decide
  revert h
  exact Text.forall_ascii (P := fun c => isNumeric c = true → isBare c = true ∧ c.toLower ≠ 'n')
    (by decide) small

/-- A number is no NULL. -/
theorem denotes_number (n : Json.Number) : Denotes n.chars (.text n.chars) := by
  have bare := denotes_bare (number_ne_nil n) fun c hc => (bare_of_numeric (numeric_number n c hc)).1
  have word : bareContent n.chars false = .text n.chars := by
    unfold bareContent
    rw [if_neg]
    cases hn : n.chars with
    | nil => simp
    | cons c s =>
      have first := (bare_of_numeric (numeric_number n c (by simp [hn]))).2
      simp [first]
  rwa [word] at bare

theorem close_inner (items : List Content) {outer : List (List Content)} (h : outer ≠ []) :
    Reader.close (items :: outer) = some ⟨.complete, add (.array items) outer⟩ := by
  cases outer with
  | nil => exact absurd rfl h
  | cons level levels => rfl

mutual
/-- Every value is written as one element. -/
theorem denotes_element (v : Json) : Denotes (element v) (contentOf v) := by
  cases v with
  | null => exact denotes_bare (List.cons_ne_nil 'N' _) (List.all_eq_true.mp rfl)
  | bool b =>
    cases b with
    | true => exact denotes_bare (List.cons_ne_nil 't' _) (List.all_eq_true.mp rfl)
    | false => exact denotes_bare (List.cons_ne_nil 'f' _) (List.all_eq_true.mp rfl)
  | number n => exact denotes_number n
  | string s => exact denotes_quoted s.toList
  | object fields => exact denotes_quoted _
  | array items =>
    intro r ready
    have opening : r.step '{' = some ⟨.opened, [] :: r.levels⟩ := ready.step rfl (by decide)
    obtain ⟨rest, hrest, closing⟩ := read_items items r.levels
    refine ⟨⟨.complete, add (.array (contentsOf items)) r.levels⟩, ?_, Reader.settled_complete _⟩
    rw [hrest, Reader.read_cons, opening, Option.bind_some, closing, close_inner _ ready.2]

/-- After the opening brace the elements come, and then the array ends. -/
theorem read_items (items : List Json) (levels : List (List Content)) :
    ∃ rest, element (.array items) = '{' :: rest ∧
      Reader.read ⟨.opened, [] :: levels⟩ rest = Reader.close (contentsOf items :: levels) := by
  cases items with
  | nil =>
    refine ⟨['}'], rfl, ?_⟩
    rw [Reader.read_cons]
    exact Option.bind_fun_some _
  | cons x xs =>
    refine ⟨element x ++ elementsAfter xs, rfl, ?_⟩
    obtain ⟨r, hr, settled⟩ := denotes_element x ⟨.opened, [] :: levels⟩ ⟨.inl rfl, by simp⟩
    rw [Reader.read_append, hr, Option.bind_some]
    exact read_elementsAfter xs r [contentOf x] levels settled

theorem read_elementsAfter (xs : List Json) (r : Reader) (items : List Content)
    (outer : List (List Content)) (h : r.Settled (items :: outer)) :
    r.read (elementsAfter xs) = Reader.close ((items ++ contentsOf xs) :: outer) := by
  cases xs with
  | nil =>
    rw [elementsAfter, Reader.read_cons, h.brace, contentsOf, List.append_nil]
    exact Option.bind_fun_some _
  | cons x xs =>
    obtain ⟨s, hs, settled⟩ := denotes_element x ⟨.wanting, items :: outer⟩ ⟨.inr rfl, by simp⟩
    rw [elementsAfter, List.cons_append, Reader.read_cons, h.comma, Option.bind_some,
      Reader.read_append, hs, Option.bind_some,
      read_elementsAfter xs s (items ++ [contentOf x]) outer settled, contentsOf,
      List.append_assoc]
    rfl
end

theorem contentsOf_eq_map (items : List Json) : contentsOf items = items.map contentOf := by
  induction items with
  | nil => rfl
  | cons v rest ih => rw [contentsOf, ih, List.map_cons]

theorem content?_ofItems (items : List Json) :
    content? (ofItems items) = some (.array (items.map contentOf)) := by
  obtain ⟨rest, hrest, closing⟩ := read_items items []
  have opening : Reader.step ⟨.outside, []⟩ '{' = some ⟨.opened, [[]]⟩ := rfl
  rw [content?, ofItems, String.toList_ofList, hrest, Reader.read_cons, opening, Option.bind_some,
    closing, contentsOf_eq_map]
  rfl

theorem object_chars (fields : Record) : ∃ rest, (Json.object fields).chars = '{' :: rest := by
  cases fields with
  | nil => exact ⟨['}'], rfl⟩
  | cons e rest => exact ⟨_, rfl⟩

/-- Numbers and truth values are words in bare characters, and no such word is NULL. -/
theorem bare_of_scalar {v : Json} (h : (∃ n, v = .number n) ∨ ∃ b, v = .bool b) :
    v.chars ≠ [] ∧ (∀ c ∈ v.chars, isBare c = true) ∧ v.chars ≠ "NULL".toList := by
  rcases h with ⟨n, rfl⟩ | ⟨b, rfl⟩
  · have numeric : Numeric (Json.number n).chars := numeric_number n
    refine ⟨number_ne_nil n, fun c hc => (bare_of_numeric (numeric c hc)).1, ?_⟩
    intro null
    rw [null] at numeric
    exact absurd (List.all_eq_true.mpr numeric) (by decide)
  · cases b with
    | true => exact ⟨List.cons_ne_nil 't' _, List.all_eq_true.mp rfl, by decide⟩
    | false => exact ⟨List.cons_ne_nil 'f' _, List.all_eq_true.mp rfl, by decide⟩

/-- Nothing but a text itself is read as the text, unless it has the same text as JSON. -/
theorem contentOf_eq_string {v : Json} {s : String} (h : contentOf v = contentOf (.string s)) :
    v = .string s ∨ (∃ fields, v = .object fields ∧ v.text = s) ∨
      ((∃ n, v = .number n) ∨ ∃ b, v = .bool b) ∧ v.chars = s.toList := by
  cases v with
  | null => contradiction
  | array items => contradiction
  | string t =>
    left
    have same : t.toList = s.toList := Content.text.inj h
    rw [String.toList_injective same]
  | object fields =>
    right
    left
    have same : (Json.object fields).chars = s.toList := Content.text.inj h
    exact ⟨fields, rfl, by rw [Json.text, same, String.ofList_toList]⟩
  | number n => exact .inr (.inr ⟨.inl ⟨n, rfl⟩, Content.text.inj h⟩)
  | bool b => exact .inr (.inr ⟨.inr ⟨b, rfl⟩, Content.text.inj h⟩)

/-- NULL and the empty text are taken for nothing else: the text of an object begins with a brace. -/
theorem contentOf_eq_word {s : String} {v : Json} (hs : s = "NULL" ∨ s = "") :
    contentOf v = contentOf (.string s) ↔ v = .string s := by
  constructor
  · intro h
    obtain h | ⟨fields, rfl, ht⟩ | ⟨scalar, hv⟩ := contentOf_eq_string h
    · exact h
    · obtain ⟨rest, hrest⟩ := object_chars fields
      have chars : '{' :: rest = s.toList := by rw [← ht, Json.text, String.toList_ofList, hrest]
      rcases hs with rfl | rfl
      · simp at chars
      · simp at chars
    · obtain ⟨nonempty, -, word⟩ := bare_of_scalar scalar
      rcases hs with rfl | rfl
      · exact absurd hv word
      · exact absurd hv nonempty
  · rintro rfl
    rfl

/-- The characters that have a meaning of their own in an array text. -/
def marks : List Char := ['"', '\\', '{', '}', ',']

theorem not_bare_of_mark {c : Char} (h : c ∈ marks) : isBare c = false := by
  have none : marks.all (fun c => !isBare c) = true := rfl
  simpa using List.all_eq_true.mp none c h

theorem contentOf_eq_marked {s : String} {v : Json} (hs : ∃ c ∈ s.toList, c ∈ marks) :
    contentOf v = contentOf (.string s) ↔
      v = .string s ∨ ∃ fields, v = .object fields ∧ v.text = s := by
  constructor
  · intro h
    obtain h | h | ⟨scalar, hv⟩ := contentOf_eq_string h
    · exact .inl h
    · exact .inr h
    · obtain ⟨c, hc, mark⟩ := hs
      have bare : isBare c = true := (bare_of_scalar scalar).2.1 c (hv ▸ hc)
      rw [not_bare_of_mark mark] at bare
      contradiction
  · rintro (rfl | ⟨fields, rfl, rfl⟩)
    · rfl
    · rw [contentOf, contentOf, Json.text, String.toList_ofList]

/-- The text that is written for a list is read back: lists as arrays to any depth, null as NULL,
strings as they are, and all else as its JSON text. So lists with the same text hold the same. No
other value is taken for the string NULL or for the empty string, nor for a string with a quote, a
backslash, a brace or a comma, save an object that has this very string as its JSON text. -/
theorem array_text_read_back (items : List Json) :
    content? (ofItems items) = some (.array (items.map contentOf)) ∧
      (∀ others, ofItems others = ofItems items → others.map contentOf = items.map contentOf) ∧
      (∀ (s : String) (v : Json), s = "NULL" ∨ s = "" →
        (contentOf v = contentOf (.string s) ↔ v = .string s)) ∧
      ∀ (s : String) (v : Json), (∃ c ∈ s.toList, c ∈ marks) →
        (contentOf v = contentOf (.string s) ↔
          v = .string s ∨ ∃ fields, v = .object fields ∧ v.text = s) := by
  refine ⟨content?_ofItems items, ?_, fun s v => contentOf_eq_word, fun s v => contentOf_eq_marked⟩
  intro others same
  have back := content?_ofItems others
  rw [same, content?_ofItems items] at back
  exact (Content.array.inj (Option.some.inj back)).symm

/-- Texts that look like the marks of an array, beside the marks themselves. -/
theorem array_text_read_back_marks :
    let items : List Json := [
      .null, .string "NULL", .string "", .string "a\"b\\c", .string "\x7b1,2\x7d",
      .array [.array [], .array [.string "x", .null]], .object [("k", .ofInt 1)], .ofInt (-12),
      .bool true]
    content? (ofItems items) = some (.array [
      .null, .text "NULL".toList, .text [], .text ['a', '"', 'b', '\\', 'c'],
      .text ['{', '1', ',', '2', '}'], .array [.array [], .array [.text ['x'], .null]],
      .text ['{', '"', 'k', '"', ':', '1', '}'], .text ['-', '1', '2'], .text "true".toList]) ∧
    contentOf .null ≠ contentOf (.string "NULL") ∧
    contentOf (.array [.ofInt 1, .ofInt 2]) ≠ contentOf (.string "\x7b1,2\x7d") := by
  intro items
  obtain ⟨back, -, words, marks⟩ := array_text_read_back items
  refine ⟨back, fun h => ?_, fun h => ?_⟩
  · have same := (words "NULL" .null (.inl rfl)).mp h
    contradiction
  · have comma : ',' ∈ "\x7b1,2\x7d".toList := by decide
    obtain same | ⟨fields, same, -⟩ := (marks _ _ ⟨',', comma, by decide⟩).mp h
    · contradiction
    · contradiction

end DataAccess.ArrayText
