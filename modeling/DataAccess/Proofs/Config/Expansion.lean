import DataAccess.Config.Environment
import Mathlib.Data.List.Infix

/-!
What becomes of the references in a text. A text is read from left to right as parts: each reference
goes up to the first brace that closes it, and one that nothing closes goes up to the end. The parts
of a text do not depend on the values of the variables, so that values are never read themselves.
-/
namespace DataAccess.Environment

def opening : List Char := ['$', '\x7b']

/-- Text between references, the name in a reference, or what follows an opening that nothing
closes. -/
inductive Part where
  | plain (s : List Char)
  | reference (name : List Char)
  | unclosed (rest : List Char)

namespace Part

def source : Part → List Char
  | plain s => s
  | reference name => opening ++ name ++ ['\x7d']
  | unclosed rest => opening ++ rest

def replaced (value : List Char → List Char) : Part → List Char
  | plain s => s
  | reference name => value name
  | unclosed rest => opening ++ rest

end Part

/-- The parts of a text, from left to right. -/
inductive Reads : List Char → List Part → Prop
  | plain {s : List Char} (first : ¬ opening <:+: s) : Reads s [.plain s]
  | unclosed {before rest : List Char} (first : ¬ opening <:+: before)
      (unclosed : '\x7d' ∉ rest) :
      Reads (before ++ (opening ++ rest)) [.plain before, .unclosed rest]
  | reference {before name rest : List Char} {parts : List Part}
      (first : ¬ opening <:+: before) (closed : '\x7d' ∉ name) (others : Reads rest parts) :
      Reads (before ++ (opening ++ (name ++ '\x7d' :: rest)))
        (.plain before :: .reference name :: parts)

/-- Every reference that is opened in a text is closed in it. -/
def Closed (s : List Char) : Prop :=
  ∃ parts, Reads s parts ∧ ∀ rest, Part.unclosed rest ∉ parts

/-- Between two texts that are put together, no reference is opened. -/
def Apart (s t : List Char) : Prop := ¬ (s.getLast? = some '$' ∧ t.head? = some '\x7b')

/-- What stands before the first opening. -/
theorem exists_first_opening {s : List Char} (h : opening <:+: s) :
    ∃ before rest, s = before ++ (opening ++ rest) ∧ ¬ opening <:+: before := by
  induction s with
  | nil => simp [opening] at h
  | cons c s ih =>
    by_cases here : opening <+: c :: s
    · obtain ⟨rest, hr⟩ := here
      exact ⟨[], rest, hr.symm, by simp [opening]⟩
    · obtain ⟨before, rest, rfl, first⟩ := ih ((List.infix_cons_iff.mp h).resolve_left here)
      refine ⟨c :: before, rest, rfl, fun earlier => ?_⟩
      rcases List.infix_cons_iff.mp earlier with now | later
      · exact here (now.trans (List.prefix_append (c :: before) _))
      · exact first later

/-- Each text can be read. -/
theorem exists_reads (s : List Char) : ∃ parts, Reads s parts := by
  -- on the length, since what follows a reference is read as a text of its own
  induction hn : s.length using Nat.strong_induction_on generalizing s with
  | _ n ih =>
    by_cases opens : opening <:+: s
    · obtain ⟨before, rest, rfl, first⟩ := exists_first_opening opens
      by_cases closes : '\x7d' ∈ rest
      · obtain ⟨name, rest, rfl, closed⟩ := List.eq_append_cons_of_mem closes
        have shorter : rest.length < n := by
          rw [← hn]
          simp only [List.length_append, List.length_cons]
          omega
        obtain ⟨parts, others⟩ := ih rest.length shorter rest rfl
        exact ⟨_, .reference first closed others⟩
      · exact ⟨_, .unclosed first closes⟩
    · exact ⟨_, .plain opens⟩

/-- The parts together are the text. -/
theorem Reads.source_eq {s : List Char} {parts : List Part} (h : Reads s parts) :
    parts.flatMap Part.source = s := by
  induction h with
  | plain _ => simp [Part.source]
  | unclosed _ _ => simp [Part.source]
  | reference _ _ _ ih => simp [Part.source, ih]

variable {value : List Char → List Char}

/-- A character that does not open a reference is copied. -/
theorem expandFrom_cons {c : Char} {s : List Char} (h : c = '$' → s.head? ≠ some '\x7b') :
    expandFrom value none (c :: s) = c :: expandFrom value none s := by
  rw [expandFrom]
  rintro rest rfl rfl
  exact h rfl rfl

/-- Text without openings is copied. -/
theorem expandFrom_append {s t : List Char} (h : ¬ opening <:+: s) (apart : Apart s t) :
    expandFrom value none (s ++ t) = s ++ expandFrom value none t := by
  induction s with
  | nil => rfl
  | cons c s ih =>
    have copied : c = '$' → (s ++ t).head? ≠ some '\x7b' := by
      rintro rfl brace
      cases s with
      | nil => exact apart ⟨rfl, brace⟩
      | cons d s =>
        obtain rfl : d = '\x7b' := Option.some.inj brace
        exact h (List.prefix_append opening s).isInfix
    have others : Apart s t := by
      rintro ⟨last, brace⟩
      exact apart ⟨by rw [List.getLast?_cons, last]; rfl, brace⟩
    have plain : ¬ opening <:+: s := fun later => h (List.infix_cons later)
    rw [List.cons_append, expandFrom_cons copied, ih plain others, List.cons_append]

/-- A name is collected up to the first closing brace. -/
theorem expandFrom_closed {name : List Char} (h : '\x7d' ∉ name) (current rest : List Char) :
    expandFrom value (some current) (name ++ '\x7d' :: rest) =
      value (current.reverse ++ name) ++ expandFrom value none rest := by
  induction name generalizing current with
  | nil => simp [expandFrom]
  | cons c name ih =>
    obtain ⟨here, others⟩ := not_or.mp (mt List.mem_cons.mpr h)
    rw [List.cons_append, expandFrom, if_neg (Ne.symm here), ih others]
    simp

theorem expandFrom_unclosed {rest : List Char} (h : '\x7d' ∉ rest) (current : List Char) :
    expandFrom value (some current) rest = opening ++ (current.reverse ++ rest) := by
  induction rest generalizing current with
  | nil => simp [expandFrom, opening]
  | cons c rest ih =>
    obtain ⟨here, others⟩ := not_or.mp (mt List.mem_cons.mpr h)
    rw [expandFrom, if_neg (Ne.symm here), ih others]
    simp

theorem apart_opening (s rest : List Char) : Apart s (opening ++ rest) := by
  rintro ⟨-, brace⟩
  exact absurd brace (by simp [opening])

theorem expandFrom_plain {s : List Char} (h : ¬ opening <:+: s) : expandFrom value none s = s := by
  have copied : expandFrom value none (s ++ []) = s ++ expandFrom value none [] :=
    expandFrom_append h (by simp [Apart])
  simpa [expandFrom] using copied

/-- What follows a reference is read as a text of its own. -/
theorem expandFrom_reference {before name : List Char} (first : ¬ opening <:+: before)
    (closed : '\x7d' ∉ name) (rest : List Char) :
    expandFrom value none (before ++ (opening ++ (name ++ '\x7d' :: rest))) =
      before ++ (value name ++ expandFrom value none rest) := by
  rw [expandFrom_append first (apart_opening _ _)]
  exact congrArg (before ++ ·) (expandFrom_closed closed [] rest)

/-- A text is replaced part by part. -/
theorem Reads.expandFrom_eq {s : List Char} {parts : List Part} (h : Reads s parts) :
    expandFrom value none s = parts.flatMap (Part.replaced value) := by
  induction h with
  | plain first =>
    rw [expandFrom_plain first]
    simp [Part.replaced]
  | @unclosed before rest first unclosed =>
    have opened : expandFrom value none (opening ++ rest) = opening ++ rest :=
      expandFrom_unclosed unclosed []
    rw [expandFrom_append first (apart_opening _ _), opened]
    simp [Part.replaced]
  | reference first closed _ ih =>
    rw [expandFrom_reference first closed, ih]
    simp [Part.replaced]

/-- A text whose references are all closed is replaced on its own. -/
theorem Closed.expandFrom_append {s t : List Char} (h : Closed s) (apart : Apart s t) :
    expandFrom value none (s ++ t) = expandFrom value none s ++ expandFrom value none t := by
  obtain ⟨parts, reads, closed⟩ := h
  induction reads with
  | plain first => rw [Environment.expandFrom_append first apart, expandFrom_plain first]
  | @unclosed before rest _ _ => exact absurd (by simp) (closed rest)
  | @reference before name rest parts first within others ih =>
    have later : Apart rest t := by
      rintro ⟨last, brace⟩
      exact apart ⟨by simp [List.getLast?_cons, last], brace⟩
    have rejoined : before ++ (opening ++ (name ++ '\x7d' :: rest)) ++ t =
        before ++ (opening ++ (name ++ '\x7d' :: (rest ++ t))) := by simp
    rw [rejoined, expandFrom_reference first within, expandFrom_reference first within,
      ih later fun r hr => closed r (by simp [hr])]
    simp

def valueOf (environment : String → Option String) (name : List Char) : List Char :=
  ((environment (String.ofList name)).getD "").toList

/-- In every text the references are replaced by the values of their variables, with an unset one
taken to be empty, and everything else stays. So texts can be put together before or after this, if
no reference goes over the seam, and a text without an opening is left as it is. -/
theorem expand_replaces (environment : String → Option String) :
    (∀ s : String, (∃ parts, Reads s.toList parts) ∧ ∀ parts, Reads s.toList parts →
      s.toList = parts.flatMap Part.source ∧
      (expand environment s).toList = parts.flatMap (Part.replaced (valueOf environment))) ∧
    (∀ a b : String, Closed a.toList → Apart a.toList b.toList →
      expand environment (a ++ b) = expand environment a ++ expand environment b) ∧
    ∀ s : String, ¬ opening <:+: s.toList → expand environment s = s := by
  have replaced {s : String} {parts : List Part} (reads : Reads s.toList parts) :
      (expand environment s).toList = parts.flatMap (Part.replaced (valueOf environment)) := by
    rw [expand, String.toList_ofList]
    exact reads.expandFrom_eq
  refine ⟨fun s => ⟨exists_reads s.toList, fun parts reads => ?_⟩, fun a b closed apart => ?_,
    fun s plain => ?_⟩
  · exact ⟨reads.source_eq.symm, replaced reads⟩
  · apply String.toList_injective
    rw [String.toList_append, expand, expand, expand, String.toList_ofList, String.toList_ofList,
      String.toList_ofList, String.toList_append]
    exact closed.expandFrom_append apart
  · apply String.toList_injective
    rw [replaced (.plain plain)]
    simp [Part.replaced]

/-- A password that looks like a reference is put in as it is, and a reference that is never closed
stays. -/
theorem expand_replaces_password :
    let environment : String → Option String := fun name =>
      if name = "PASSWORD" then some "p$\x7bHOST\x7d" else none
    let a := "postgres://$\x7bUSER\x7d:$\x7bPASSWORD\x7d@é$"
    let b := "$\x7bHOST\x7d/$\x7bDB"
    Closed a.toList ∧ Apart a.toList b.toList ∧
      expand environment a = "postgres://:p$\x7bHOST\x7d@é$" ∧ expand environment b = "/$\x7bDB" ∧
      expand environment (a ++ b) = "postgres://:p$\x7bHOST\x7d@é$/$\x7bDB" := by
  intro environment a b
  have closed : Closed a.toList := by
    refine ⟨[.plain "postgres://".toList, .reference "USER".toList, .plain [':'],
      .reference "PASSWORD".toList, .plain ['@', 'é', '$']], ?_, by simp⟩
    have last : Reads ['@', 'é', '$'] [.plain ['@', 'é', '$']] := .plain (by decide)
    have spelled : a.toList = "postgres://".toList ++ (opening ++ ("USER".toList ++
        '\x7d' :: ([':'] ++ (opening ++ ("PASSWORD".toList ++ '\x7d' :: ['@', 'é', '$']))))) := by
      decide
    rw [spelled]
    exact .reference (by decide) (by decide) (.reference (by decide) (by decide) last)
  have apart : Apart a.toList b.toList := by
    unfold Apart
    decide
  have first : expand environment a = "postgres://:p$\x7bHOST\x7d@é$" := by decide +kernel
  have second : expand environment b = "/$\x7bDB" := by decide +kernel
  obtain ⟨-, split, -⟩ := expand_replaces environment
  have joined := split a b closed apart
  rw [first, second] at joined
  exact ⟨closed, apart, first, second, joined⟩

end DataAccess.Environment
