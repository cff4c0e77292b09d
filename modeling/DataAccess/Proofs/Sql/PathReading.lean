import DataAccess.Proofs.Sql.Names
import DataAccess.Proofs.Sql.Tokens
import DataAccess.Proofs.Sql.Writing

/-!
References into JSON documents. A database reads the arrows and keys that the key of the column
has, and what is compared with the reference is bound as the last arrow asks for.
-/
namespace DataAccess
open Text Reference

/-- One step into a document, to a part of it or to its text. -/
structure PathStep where
  asText : Bool
  key : List Char
  unbroken : ¬ ['-', '>'] <:+: key
  unmarked : key.head? ≠ some '>'

namespace PathStep

def arrow (s : PathStep) : List Char := if s.asText then ['-', '>', '>'] else ['-', '>']

def marked (s : PathStep) : List Char := if s.asText then '>' :: s.key else s.key

theorem arrow_append_key (s : PathStep) : s.arrow ++ s.key = '-' :: '>' :: s.marked := by
  unfold arrow marked
  split_ifs <;> rfl

theorem not_infix_marked (s : PathStep) : ¬ ['-', '>'] <:+: s.marked := by
  unfold marked
  split_ifs
  · intro h
    rcases List.infix_cons_iff.mp h with first | rest
    · obtain ⟨t, ht⟩ := first
      exact absurd (List.cons.inj ht).1 (by decide)
    · exact s.unbroken rest
  · exact s.unbroken

theorem arrowChars_marked (s : PathStep) (n : Naming) :
    n.arrowChars s.marked = s.arrow ++ n.keyChars s.key := by
  unfold arrow marked
  split_ifs
  · rfl
  · have none : Text.unmarked '>' s.key = none := by
      have other := s.unmarked
      cases hk : s.key with
      | nil => rfl
      | cons c key =>
        rw [hk] at other
        exact if_neg fun hc => other (congrArg some hc)
    rw [Naming.arrowChars, none]
    rfl

/-- An index is read as it is written, with its sign as an operator, and any other key as a literal
in the convention of the application. -/
def tokens (n : Naming) (s : PathStep) : List Token :=
  .operator s.arrow ::
    if Naming.isIndex s.key then
      (s.key.takeWhile isPlusOrMinus).map (fun c => .operator [c]) ++
        [.word (s.key.dropWhile isPlusOrMinus)]
    else [.literal (n.app.convertChars s.key)]

end PathStep

/-- The key of a column with at least one step. -/
structure PathKey where
  head : List Char
  steps : List PathStep
  named : head ≠ []
  worded : ∀ c ∈ head, isWordChar c = true
  leads : steps ≠ []

namespace PathKey

def chars (p : PathKey) : List Char := p.head ++ p.steps.flatMap fun s => s.arrow ++ s.key

def text (p : PathKey) : String := String.ofList p.chars

def asText (p : PathKey) : Bool := (p.steps.getLast p.leads).asText

end PathKey

/-- The sign of a number is told from its digits. -/
theorem sign_parted {sign digits : List Char} (hs : sign ∈ [[], ['-'], ['+']])
    (nonempty : digits ≠ []) (numeric : ∀ c ∈ digits, c.isDigit = true) :
    (sign ++ digits).takeWhile isPlusOrMinus = sign ∧
      (sign ++ digits).dropWhile isPlusOrMinus = digits := by
  have signs : ∀ sign ∈ [[], ['-'], ['+']], sign.all isPlusOrMinus = true := by decide
  have whole := List.all_eq_true.mp (signs sign hs)
  obtain ⟨c, digits, rfl⟩ := List.exists_cons_of_ne_nil nonempty
  have other : isPlusOrMinus c = false := by
    rw [Bool.eq_false_iff]
    intro hc
    have digit := numeric c List.mem_cons_self
    simp only [isPlusOrMinus, Bool.or_eq_true, decide_eq_true_eq] at hc
    rcases hc with rfl | rfl <;> contradiction
  rw [List.takeWhile_append_of_pos whole, List.dropWhile_append_of_pos whole]
  simp [other]

namespace Reference

theorem isWordChar_ascii {c : Char} (h : isWordChar c = true) : c.toNat < 128 := by
  rw [isWordChar, Bool.or_eq_true_iff, Bool.or_eq_true_iff, decide_eq_true_eq,
    decide_eq_true_eq] at h
  rcases h with (letter | rfl) | rfl
  · rcases Bool.or_eq_true_iff.mp letter with alpha | digit
    · rcases Bool.or_eq_true_iff.mp alpha with upper | lower
      · have last : c.toNat ≤ 90 := (of_decide_eq_true upper).2
        omega
      · have last : c.toNat ≤ 122 := of_decide_eq_true (Bool.and_eq_true_iff.mp lower).2
        omega
    · have last : c.toNat ≤ 57 := of_decide_eq_true (Bool.and_eq_true_iff.mp digit).2
      omega
  · decide
  · decide

theorem isWordChar_of_isDigit {c : Char} (h : c.isDigit = true) : isWordChar c = true := by
  simp [isWordChar, Char.isAlphanum, h]

theorem caseStable_word : CaseStable (isWordChar · = true) where
  lower := by
    intro c hc
    have ascii := isWordChar_ascii hc
    rw [lower_ascii ascii, List.forall_mem_singleton]
    exact forall_ascii (P := fun c => isWordChar c = true → isWordChar c.toLower = true)
      (by decide) ascii hc
  upper := by
    intro c hc
    have ascii := isWordChar_ascii hc
    rw [upper_ascii ascii, List.forall_mem_singleton]
    exact forall_ascii (P := fun c => isWordChar c = true → isWordChar c.toUpper = true)
      (by decide) ascii hc
  sigma := nofun

end Reference

namespace PathStep
variable {r : Reader} {before : List Token}

/-- A sign before a number does not get into the arrow. -/
theorem read_sign (s : PathStep) (before : List Token) {sign : List Char}
    (h : sign ∈ [[], ['-'], ['+']]) :
    Reader.read ⟨.operator s.arrow, before⟩ sign = some ⟨.operator (s.arrow ++ sign), before⟩ ∧
      operators (s.arrow ++ sign) = .operator s.arrow :: sign.map fun c => .operator [c] := by
  simp only [List.mem_cons, List.not_mem_nil, or_false] at h
  unfold arrow
  split_ifs <;> rcases h with rfl | rfl | rfl <;> exact ⟨rfl, by decide⟩

theorem read_arrow (s : PathStep) (h : r.Ended before) :
    r.read s.arrow = some ⟨.operator s.arrow, before⟩ := by
  unfold arrow
  split_ifs <;> rw [Reader.read_cons, h.step (by decide)] <;> rfl

theorem read_step (s : PathStep) (n : Naming) (h : r.Ended before) :
    ∃ r', r.read (n.arrowChars s.marked) = some r' ∧ r'.Ended (before ++ s.tokens n) := by
  rw [s.arrowChars_marked, Reader.read_append, s.read_arrow h, Option.bind_some]
  unfold Naming.keyChars tokens
  split_ifs with index
  · obtain ⟨sign, hs, digits, hk, nonempty, numeric⟩ := Naming.isIndex_cases index
    have parted : s.key.takeWhile isPlusOrMinus = sign ∧
        s.key.dropWhile isPlusOrMinus = digits := hk ▸ sign_parted hs nonempty numeric
    obtain ⟨read, split⟩ := s.read_sign before hs
    obtain ⟨r', hr, ended⟩ := (Reader.begins_operator (s.arrow ++ sign) before).word nonempty
      fun c hc => isWordChar_of_isDigit (numeric c hc)
    refine ⟨r', ?_, ?_⟩
    · rw [hk, Reader.read_append, read, Option.bind_some, hr]
    · rw [parted.1, parted.2]
      rwa [split, List.append_assoc, List.cons_append] at ended
  · have single : isQuote '\x27' = true := by decide
    have unsigned : [] ∈ [[], ['-'], ['+']] := List.mem_cons_self
    obtain ⟨r', hr, ended⟩ := (Reader.begins_operator s.arrow before).quoted single
      (n.app.convertChars s.key)
    have split := (s.read_sign before unsigned).2
    rw [List.append_nil] at split
    refine ⟨r', hr, ?_⟩
    rwa [split, List.append_assoc] at ended

/-- Each step adds what it is read as. -/
theorem read_steps (steps : List PathStep) (n : Naming) (h : r.Ended before) :
    ∃ r', r.read (steps.flatMap fun s => n.arrowChars s.marked) = some r' ∧
      r'.Ended (before ++ steps.flatMap (tokens n)) := by
  induction steps generalizing r before with
  | nil => exact ⟨r, rfl, by rwa [List.flatMap_nil, List.append_nil]⟩
  | cons s steps ih =>
    obtain ⟨u, hu, first⟩ := s.read_step n h
    obtain ⟨v, hv, others⟩ := ih first
    refine ⟨v, ?_, by rwa [List.append_assoc] at others⟩
    rw [List.flatMap_cons, Reader.read_append, hu, Option.bind_some, hv]

end PathStep

theorem arrowParts_steps {head : List Char} (h : ¬ ['-', '>'] <:+: head)
    (steps : List PathStep) :
    arrowParts (head ++ steps.flatMap fun s => s.arrow ++ s.key) =
      head :: steps.map PathStep.marked := by
  induction steps generalizing head with
  | nil =>
    rw [List.flatMap_nil, List.append_nil]
    exact arrowParts_of_not_infix h
  | cons s steps ih =>
    rw [List.flatMap_cons, s.arrow_append_key]
    show arrowParts (head ++ '-' :: '>' :: (s.marked ++ _)) = _
    rw [arrowParts_append h, ih s.not_infix_marked, List.map_cons]

namespace PathKey
variable (p : PathKey) (n : Naming)

def headToken : Token :=
  if p.head.contains '.' then .word (n.storageChars p.head) else .name (n.db.convertChars p.head)

theorem not_mem_head {x : Char} (h : isWordChar x = false) : x ∉ p.head := by
  intro hx
  rw [p.worded x hx] at h
  contradiction

theorem unmarked_head {x : Char} (h : isWordChar x = false) (rest : List Char) :
    unmarked x (p.head ++ rest) = none := by
  obtain ⟨c, head, hc⟩ := List.exists_cons_of_ne_nil p.named
  have other : c ≠ x := by
    rintro rfl
    exact p.not_mem_head h (hc ▸ List.mem_cons_self)
  rw [hc]
  exact if_neg other

theorem unmarked_chars {x : Char} (h : isWordChar x = false) : unmarked x p.chars = none :=
  p.unmarked_head h _

theorem not_infix_head : ¬ ['-', '>'] <:+: p.head := fun h =>
  p.not_mem_head (by decide : isWordChar '-' = false) (h.subset List.mem_cons_self)

theorem arrowParts_chars : arrowParts p.chars = p.head :: p.steps.map PathStep.marked :=
  arrowParts_steps p.not_infix_head p.steps

theorem isPath_chars : Naming.isPath p.chars = true := by
  have some := List.length_pos_iff.mpr p.leads
  rw [Naming.isPath, p.arrowParts_chars, List.length_cons, List.length_map, decide_eq_true_eq]
  omega

theorem columnChars_chars : n.columnChars p.chars =
    n.headChars p.head ++ p.steps.flatMap fun s => n.arrowChars s.marked := by
  unfold Naming.columnChars
  rw [p.unmarked_chars (by decide), p.unmarked_chars (by decide)]
  dsimp only
  rw [if_pos p.isPath_chars, p.arrowParts_chars, Naming.pathChars, List.flatMap_map]

theorem columnChars_head : n.columnChars p.head = n.headChars p.head := by
  unfold Naming.columnChars
  rw [unmarked_of_not_mem (p.not_mem_head (by decide)),
    unmarked_of_not_mem (p.not_mem_head (by decide))]
  dsimp only
  rw [Naming.isPath, arrowParts_of_not_infix p.not_infix_head]
  rfl

variable {n}

theorem worded_segment (db : n.db ≠ .kebab) {s : List Char} (h : ∀ c ∈ s, isWordChar c = true) :
    ∀ c ∈ n.segment s, isWordChar c = true := by
  rw [Naming.segment_eq]
  exact caseStable_word.convertChars (by decide) (fun kebab => absurd kebab db) h

/-- A head with dots keeps them. -/
theorem storageChars_head (db : n.db ≠ .kebab) (dotted : '.' ∈ p.head) :
    n.storageChars p.head ≠ [] ∧ ∀ c ∈ n.storageChars p.head, isWordChar c = true := by
  have unmarked : unmarked ':' p.head = none := unmarked_of_not_mem (p.not_mem_head (by decide))
  rw [Naming.storageChars, unmarked]
  dsimp only
  constructor
  · obtain ⟨first, rest, hs, whole⟩ := List.eq_append_cons_of_mem dotted
    rw [hs, parts_append whole, List.map_cons]
    obtain ⟨q, qs, hq⟩ := List.exists_cons_of_ne_nil (parts_ne_nil '.' rest)
    rw [hq]
    simp [joined]
  · refine forall_mem_joined (List.all_eq_true.mp rfl) fun q hq => ?_
    obtain ⟨part, hp, rfl⟩ := List.mem_map.mp hq
    exact worded_segment db fun c hc => p.worded c (mem_of_mem_parts hp hc)

theorem read_head (db : n.db ≠ .kebab) : ∃ r, Reader.read ⟨.outset, []⟩ (n.headChars p.head) =
    some r ∧ r.Ended [p.headToken n] := by
  unfold Naming.headChars headToken
  split_ifs with dotted
  · obtain ⟨nonempty, worded⟩ := p.storageChars_head db (List.contains_iff_mem.mp dotted)
    exact (Reader.begins_outset []).word nonempty worded
  · have unquoted : '"' ∉ n.db.convertChars p.head :=
      not_mem_convertChars (by decide) (fun _ => by decide) (p.not_mem_head (by decide))
    obtain ⟨r, hr, ended⟩ := (Reader.begins_outset []).quoted (by decide : isQuote '"' = true)
      (n.db.convertChars p.head)
    rw [Reader.flatMap_of_not_mem unquoted] at hr
    rw [Naming.segment_eq]
    exact ⟨r, hr, ended⟩

theorem tokens?_head (db : n.db ≠ .kebab) :
    tokens? (n.columnChars p.head) = some [p.headToken n] := by
  obtain ⟨r, hr, ended⟩ := p.read_head db
  rw [tokens?, p.columnChars_head, hr, Option.bind_some, ended.finish]

theorem tokens?_chars (db : n.db ≠ .kebab) : tokens? (n.columnChars p.chars) =
    some (p.headToken n :: p.steps.flatMap (PathStep.tokens n)) := by
  obtain ⟨r, hr, first⟩ := p.read_head db
  obtain ⟨u, hu, ended⟩ := PathStep.read_steps p.steps n first
  rw [tokens?, p.columnChars_chars, Reader.read_append, hr, Option.bind_some, hu,
    Option.bind_some, ended.finish]
  rfl

/-- What is known of the column is what its last arrow says. -/
theorem slot_text (d : Dialect) (table : String) :
    d.slot table p.text = if p.asText then .textPath else .jsonPath := by
  have last : (arrowParts p.chars).getLast?.getD [] = (p.steps.getLast p.leads).marked := by
    rw [p.arrowParts_chars, List.getLast?_cons, List.getLast?_map,
      List.getLast?_eq_some_getLast p.leads]
    rfl
  have path : d.slot table p.text = Dialect.pathSlot p.chars := by
    unfold Dialect.slot
    rw [text, String.toList_ofList]
    dsimp only
    rw [p.unmarked_chars (by decide), p.unmarked_chars (by decide)]
    exact if_pos p.isPath_chars
  rw [path, Dialect.pathSlot, last, asText, PathStep.marked]
  have other := (p.steps.getLast p.leads).unmarked
  split_ifs
  · rfl
  · split
    next => contradiction
    next => rfl

end PathKey

namespace Sql

def opensUncast : Sql → Bool
  | .text s :: _ => !([':', ':'].isPrefixOf s.toList)
  | _ => true

def castFree : Sql → Bool
  | [] => true
  | .text _ :: rest => castFree rest
  | .hole _ :: rest => opensUncast rest && castFree rest

/-- These values are bound in this order, and none of them is cast. -/
structure BindsUncast (s : Sql) (values : List Json) : Prop where
  params : s.params = values
  free : s.castFree = true

variable {s : Sql} {values : List Json}

theorem BindsUncast.text (h : s.BindsUncast values) (t : String) :
    BindsUncast (.text t :: s) values := ⟨h.params, h.free⟩

theorem BindsUncast.hole (h : s.BindsUncast values) (v : Json) (opens : s.opensUncast = true) :
    BindsUncast (.hole v :: s) (v :: values) :=
  ⟨congrArg (v :: ·) h.params, Bool.and_eq_true_iff.mpr ⟨opens, h.free⟩⟩

/-- Values between commas, up to some text. -/
theorem bindsUncast_commas (items : List Json) {last : String}
    (h : opensUncast [.text last] = true) :
    BindsUncast (joined ", " (items.map fun v => [.hole (textual v)]) ++ [.text last])
      (items.map textual) := by
  induction items with
  | nil => exact ⟨rfl, rfl⟩
  | cons v items ih =>
    cases items with
    | nil => exact ih.hole (textual v) h
    | cons u items => exact (ih.text ", ").hole (textual v) rfl

end Sql

def Json.compared : Json → List Json
  | .array items => items
  | v => [v]

namespace Dialect
variable {d : Dialect} {table column : String} {comparer : Comparer} {v : Json}

theorem leaf_of_scalar (scalar : comparer.isJson = false) (present : v.isNull = false) :
    d.leaf table column comparer (.value v) =
      .ok (comparison (d.naming.column column) comparer v (d.slot table column)) := by
  unfold leaf
  dsimp only
  rw [present]
  cases comparer <;> first | contradiction | rfl

theorem bindsUncast_membership (target : String) (comparer : Comparer) (items : List Json) :
    (membership target comparer items .textPath).BindsUncast (items.map textual) := by
  have list : Sql.BindsUncast (Sql.joined ", " (items.map fun v => bind v .textPath) ++
      [.text "])"]) (items.map textual) := Sql.bindsUncast_commas items rfl
  unfold membership
  by_cases none : items.isEmpty
  · rw [if_pos none, List.isEmpty_iff.mp none]
    exact ⟨rfl, rfl⟩
  · rw [if_neg none]
    split_ifs <;> exact list.text _

/-- What is compared with a text is bound as it is, or as its text. -/
theorem leaf_textPath (h : d.slot table column = .textPath) (scalar : comparer.isJson = false)
    (present : v.isNull = false) : ∃ sql, d.leaf table column comparer (.value v) = .ok sql ∧
      sql.BindsUncast (v.compared.map textual) := by
  refine ⟨_, leaf_of_scalar scalar present, ?_⟩
  rw [h]
  cases v with
  | array items => exact bindsUncast_membership _ comparer items
  | _ => exact ⟨rfl, rfl⟩

/-- What is compared with a part of a document is bound as a document. -/
theorem leaf_jsonPath (h : d.slot table column = .jsonPath) (scalar : comparer.isJson = false)
    (present : v.isNull = false) : d.leaf table column comparer (.value v) =
      .ok (operation (d.naming.column column) comparer.sql
        [.hole (.string v.text), .text "::jsonb"]) := by
  rw [leaf_of_scalar scalar present, h]
  cases v <;> rfl

end Dialect

/-- A key with arrows is read as what its head is read as, and then, for each step, as its arrow and
its key. After a last arrow to a text the values of a comparison are bound without a cast, and after
another one as a single document. -/
theorem path_reference_read (d : Dialect) (db : d.naming.db ≠ .kebab) (table : String)
    (p : PathKey) :
    tokens? (d.naming.column (String.ofList p.head)).toList = some [p.headToken d.naming] ∧
    tokens? (d.naming.column p.text).toList =
      some (p.headToken d.naming :: p.steps.flatMap (PathStep.tokens d.naming)) ∧
    ∀ (comparer : Comparer) (v : Json), comparer.isJson = false → v.isNull = false →
      (p.asText = true → ∃ sql, d.leaf table p.text comparer (.value v) = .ok sql ∧
        Compiler.leaf d table p.text comparer (.value v) = sql.write ∧
        sql.BindsUncast (v.compared.map textual)) ∧
      (p.asText = false → d.leaf table p.text comparer (.value v) =
        .ok (operation (d.naming.column p.text) comparer.sql
          [.hole (.string v.text), .text "::jsonb"]) ∧
        Compiler.leaf d table p.text comparer (.value v) = do
          let placeholder ← Compiler.push (.string v.text)
          return d.naming.column p.text ++ " " ++ comparer.sql ++ " " ++ placeholder ++
            "::jsonb") := by
  refine ⟨?_, ?_, fun comparer v scalar present => ⟨fun text => ?_, fun part => ?_⟩⟩
  · rw [Naming.column, String.toList_ofList, String.toList_ofList]
    exact p.tokens?_head db
  · rw [Naming.column, String.toList_ofList, PathKey.text, String.toList_ofList]
    exact p.tokens?_chars db
  · obtain ⟨sql, laid, uncast⟩ :=
      Dialect.leaf_textPath ((p.slot_text d table).trans (if_pos text)) scalar present
    refine ⟨sql, laid, ?_, uncast⟩
    rw [Compiler.leaf_eq, laid, Compiler.ofLayout_ok]
  · have other : ¬ p.asText = true := by simp [part]
    have laid := Dialect.leaf_jsonPath ((p.slot_text d table).trans (if_neg other)) scalar present
    refine ⟨laid, ?_⟩
    rw [Compiler.leaf_eq, laid, Compiler.ofLayout_ok, Compiler.write_operation]
    simp [Sql.write, String.append_assoc]

/-- A quote in a key stays in its literal, a minus before an index out of the arrow, and a minus
after a key out of the next one. -/
theorem path_reference_read_signs :
    let d : Dialect := ⟨{}, "id", []⟩
    let key := "profile.pageData->>it's->-5->a-->b"
    d.naming.column key = "profile.page_data->>'it''s'->-5->'a'->'b'" ∧
      tokens? (d.naming.column key).toList = some [.word "profile.page_data".toList,
        .operator ['-', '>', '>'], .literal ['i', 't', '\x27', 's'], .operator ['-', '>'],
        .operator ['-'], .word ['5'], .operator ['-', '>'], .literal ['a'], .operator ['-', '>'],
        .literal ['b']] ∧
      d.leaf "users" key .eq (.value (.ofInt 3)) =
        .ok (operation (d.naming.column key) "=" [.hole (.string "3"), .text "::jsonb"]) := by
  intro d key
  let steps : List PathStep :=
    [⟨true, ['i', 't', '\x27', 's'], by decide, by decide⟩,
      ⟨false, ['-', '5'], by decide, by decide⟩, ⟨false, ['a', '-'], by decide, by decide⟩,
      ⟨false, ['b'], by decide, by decide⟩]
  let p : PathKey := ⟨"profile.pageData".toList, steps, by decide,
    List.all_eq_true.mp (by decide), by decide⟩
  have written : p.text = key := by decide +kernel
  have reference : d.naming.column key = "profile.page_data->>'it''s'->-5->'a'->'b'" := by
    decide +kernel
  obtain ⟨-, read, bound⟩ := path_reference_read d (by decide) "users" p
  have part := ((bound .eq (.ofInt 3) rfl rfl).2 rfl).1
  have tokens : p.headToken d.naming :: p.steps.flatMap (PathStep.tokens d.naming) =
      [.word "profile.page_data".toList,
        .operator ['-', '>', '>'], .literal ['i', 't', '\x27', 's'], .operator ['-', '>'],
        .operator ['-'], .word ['5'], .operator ['-', '>'], .literal ['a'], .operator ['-', '>'],
        .literal ['b']] := by
    decide +kernel
  rw [written] at read part
  exact ⟨reference, read.trans (congrArg some tokens), part⟩

end DataAccess
