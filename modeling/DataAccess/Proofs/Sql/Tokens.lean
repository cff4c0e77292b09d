import Mathlib.Data.List.DropRight

/-!
Reading a reference to a column, as a database does. A reference has no blanks in it: names and
numbers, quoted names and literals stand between operators.
-/
namespace DataAccess.Reference

inductive Token where
  /-- A number, or a name with its dots. -/
  | word (s : List Char)
  /-- A name in double quotes. -/
  | name (s : List Char)
  | literal (s : List Char)
  | operator (s : List Char)
  deriving DecidableEq

def isWordChar (c : Char) : Bool := c.isAlphanum || c = '_' || c = '.'

def isQuote (c : Char) : Bool := c = '"' || c = '\x27'

def quoted (quote : Char) (s : List Char) : Token := if quote = '"' then .name s else .literal s

/-- With one of these in it an operator may end with a plus or a minus. -/
def signBearers : List Char := ['~', '!', '@', '#', '%', '^', '&', '|', '\x60', '?']

def operatorChars : List Char := ['+', '-', '*', '/', '<', '>', '='] ++ signBearers

def isOperatorChar (c : Char) : Bool := operatorChars.contains c

def isPlusOrMinus (c : Char) : Bool := c = '+' || c = '-'

/-- The operators in a run of their characters. Each plus and minus at the end of it is one of its
own, unless the operator may end with them. -/
def operators (run : List Char) : List Token :=
  if run.any signBearers.contains then [.operator run] else
  let body := run.rdropWhile isPlusOrMinus
  (if body.isEmpty then [] else [.operator body]) ++
    (run.rtakeWhile isPlusOrMinus).map fun c => .operator [c]

theorem apart_of_operatorChar {c : Char} (h : isOperatorChar c = true) :
    isWordChar c = false ∧ isQuote c = false := by
  have all : operatorChars.all (fun c => !isWordChar c && !isQuote c) = true := by decide
  simpa using List.all_eq_true.mp all c (List.contains_iff_mem.mp h)

def beginsComment (c d : Char) : Bool := c = '-' && d = '-' || c = '/' && d = '*'

inductive Place where
  /-- Before the first token. -/
  | outset
  | word (read : List Char)
  /-- Between quotes. -/
  | within (quote : Char) (read : List Char)
  /-- After a quote, which ends the token unless another one follows. -/
  | closed (quote : Char) (read : List Char)
  | operator (run : List Char)

/-- A reader goes through the text once and keeps the tokens that have ended. -/
structure Reader where
  place : Place
  tokens : List Token

namespace Reader

def start (tokens : List Token) (c : Char) : Option Reader :=
  if isWordChar c then some ⟨.word [c], tokens⟩
  else if isQuote c then some ⟨.within c [], tokens⟩
  else none

def goOn (tokens : List Token) (c : Char) : Option Reader :=
  if isOperatorChar c then some ⟨.operator [c], tokens⟩ else none

/-- One character. Comments and characters out of place stop the reader. -/
def step (r : Reader) (c : Char) : Option Reader :=
  match r.place with
  | .outset => start r.tokens c
  | .word s =>
    if isWordChar c then some { r with place := .word (s ++ [c]) }
    else goOn (r.tokens ++ [.word s]) c
  | .within quote s =>
    some { r with place := if c = quote then .closed quote s else .within quote (s ++ [c]) }
  | .closed quote s =>
    if c = quote then some { r with place := .within quote (s ++ [c]) }
    else goOn (r.tokens ++ [quoted quote s]) c
  | .operator run =>
    if isOperatorChar c then
      if run.getLast?.any (beginsComment · c) then none
      else some { r with place := .operator (run ++ [c]) }
    else start (r.tokens ++ operators run) c

def read (r : Reader) (s : List Char) : Option Reader := s.foldlM step r

theorem read_nil (r : Reader) : r.read [] = some r := rfl

theorem read_cons (r : Reader) (c : Char) (s : List Char) :
    r.read (c :: s) = (r.step c).bind fun r => r.read s :=
  List.foldlM_cons

theorem read_append (r : Reader) (s t : List Char) :
    r.read (s ++ t) = (r.read s).bind fun r => r.read t :=
  List.foldlM_append

def finish (r : Reader) : Option (List Token) :=
  match r.place with
  | .outset => some r.tokens
  | .word s => some (r.tokens ++ [.word s])
  | .within _ _ => none
  | .closed quote s => some (r.tokens ++ [quoted quote s])
  | .operator run => some (r.tokens ++ operators run)

end Reader

def tokens? (s : List Char) : Option (List Token) :=
  (Reader.read ⟨.outset, []⟩ s).bind Reader.finish

/-- The minus belongs to the number and not to the arrow. -/
example : tokens? ['"', 'a', '"', '"', '"', '-', '>', '-', '1', '-', '>', '>', '\x27', '\x27'] =
    some [.name ['a', '"'], .operator ['-', '>'], .operator ['-'], .word ['1'],
      .operator ['-', '>', '>'], .literal []] := by
  decide

namespace Reader

inductive Ended : Reader → List Token → Prop
  | word (s : List Char) (tokens : List Token) :
    Ended ⟨.word s, tokens⟩ (tokens ++ [.word s])
  | closed {quote : Char} (h : isQuote quote = true) (s : List Char) (tokens : List Token) :
    Ended ⟨.closed quote s, tokens⟩ (tokens ++ [quoted quote s])

variable {r : Reader} {tokens : List Token}

theorem Ended.finish (h : Ended r tokens) : r.finish = some tokens := by
  cases h <;> rfl

theorem Ended.step (h : Ended r tokens) {c : Char} (hc : isOperatorChar c = true) :
    r.step c = some ⟨.operator [c], tokens⟩ := by
  obtain ⟨unworded, unquoted⟩ := apart_of_operatorChar hc
  cases h with
  | word s tokens => simp [Reader.step, goOn, unworded, hc]
  | @closed quote h s tokens =>
    have apart : c ≠ quote := by
      rintro rfl
      rw [unquoted] at h
      contradiction
    simp [Reader.step, goOn, apart, hc]

theorem read_word {s : List Char} (h : ∀ c ∈ s, isWordChar c = true) (before : List Char)
    (tokens : List Token) :
    read ⟨.word before, tokens⟩ s = some ⟨.word (before ++ s), tokens⟩ := by
  induction s generalizing before with
  | nil => rw [read_nil, List.append_nil]
  | cons c s ih =>
    obtain ⟨here, others⟩ := List.forall_mem_cons.mp h
    have rest := ih others (before ++ [c])
    rw [List.append_assoc] at rest
    simpa [read_cons, step, here] using rest

/-- Two quotes in a row are one that belongs to the token. -/
theorem read_within (quote : Char) (s before : List Char) (tokens : List Token) :
    read ⟨.within quote before, tokens⟩
        (s.flatMap fun c => if c = quote then [quote, quote] else [c]) =
      some ⟨.within quote (before ++ s), tokens⟩ := by
  induction s generalizing before with
  | nil => simp [read_nil]
  | cons c s ih =>
    have rest := ih (before ++ [c])
    rw [List.append_assoc] at rest
    rw [List.flatMap_cons, read_append]
    split_ifs with h
    · simpa [read_cons, read_nil, step, h] using rest
    · simpa [read_cons, read_nil, step, h] using rest

theorem flatMap_of_not_mem {quote : Char} {s : List Char} (h : quote ∉ s) :
    (s.flatMap fun c => if c = quote then [quote, quote] else [c]) = s := by
  have same : (s.flatMap fun c => if c = quote then [quote, quote] else [c]) =
      s.flatMap fun c => [c] :=
    List.flatMap_congr fun c hc => if_neg fun (quoted : c = quote) => h (quoted ▸ hc)
  rw [same, List.flatMap_singleton']

def Begins (r : Reader) (tokens : List Token) : Prop :=
  ∀ c, isOperatorChar c = false → r.step c = start tokens c

theorem begins_outset (tokens : List Token) : Begins ⟨.outset, tokens⟩ tokens :=
  fun _ _ => rfl

theorem begins_operator (run : List Char) (tokens : List Token) :
    Begins ⟨.operator run, tokens⟩ (tokens ++ operators run) := by
  intro c hc
  simp [step, hc]

theorem Begins.word (h : Begins r tokens) {s : List Char} (nonempty : s ≠ [])
    (hs : ∀ c ∈ s, isWordChar c = true) : ∃ r', r.read s = some r' ∧
      r'.Ended (tokens ++ [.word s]) := by
  obtain ⟨c, s, rfl⟩ := List.exists_cons_of_ne_nil nonempty
  obtain ⟨here, others⟩ := List.forall_mem_cons.mp hs
  have other : isOperatorChar c = false := by
    rw [Bool.eq_false_iff]
    intro hc
    rw [(apart_of_operatorChar hc).1] at here
    contradiction
  have first : start tokens c = some ⟨.word [c], tokens⟩ := by simp [start, here]
  refine ⟨⟨.word (c :: s), tokens⟩, ?_, .word _ _⟩
  rw [read_cons, h c other, first, Option.bind_some, read_word others]
  rfl

theorem Begins.quoted (h : Begins r tokens) {quote : Char} (hq : isQuote quote = true)
    (s : List Char) : ∃ r',
      r.read (quote :: (s.flatMap fun c => if c = quote then [quote, quote] else [c]) ++ [quote]) =
        some r' ∧ r'.Ended (tokens ++ [Reference.quoted quote s]) := by
  have kinds : isOperatorChar quote = false ∧ isWordChar quote = false := by
    simp only [isQuote, Bool.or_eq_true, decide_eq_true_eq] at hq
    rcases hq with rfl | rfl <;> decide
  have first : start tokens quote = some ⟨.within quote [], tokens⟩ := by
    simp [start, kinds.2, hq]
  refine ⟨⟨.closed quote s, tokens⟩, ?_, .closed hq _ _⟩
  rw [List.cons_append, read_cons, h quote kinds.1, first, Option.bind_some, read_append,
    read_within, Option.bind_some]
  simp [read_cons, read_nil, step]

end Reader
end DataAccess.Reference
