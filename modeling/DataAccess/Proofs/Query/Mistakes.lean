import DataAccess.Link.Scripted
import DataAccess.Proofs.Outcome
import DataAccess.Query.Answer

/-!
What a chain of steps is refused for. Whether a step is malformed does not depend on the query so
far. So the first mistake of a chain decides, and whoever wants the statement of the query, its
rows, their number or a sum is refused for it before anything else is done.
-/
namespace DataAccess

/-- A task has failed before its first step: it never gets a turn, so that nothing is asked of the
link or told to subscribers, and the world stays as it is. -/
structure Act.Refused {W α : Type} (task : Act W α) (e : Error) : Prop where
  stepless : task.run = .done (.error e)
  unmoved : ∀ w, task.start w = (.error e, w)

namespace Edit

/-- A step that cannot be taken, and what it is refused for. -/
inductive Malformed : Edit → Error → Prop where
  | filter {conditions : Json} {e : Error} (unread : Condition.parse conditions = .error e) :
      Malformed (.filter conditions) e
  | having {conditions : Json} {e : Error} (unread : Condition.parse conditions = .error e) :
      Malformed (.having conditions) e
  | joinValue {join : Json} {e : Error} (unread : Join.ofJson join = .error e) :
      Malformed (.joinValue join) e
  | insert {values : Json} (others : ∀ fields, values ≠ .object fields) (given : values ≠ .null) :
      Malformed (.insert values) (.invalidValues (.notColumns values))
  | update {values : Json} (others : ∀ fields, values ≠ .object fields) :
      Malformed (.update values) (.invalidValues (.notColumns values))

def WellFormed (s : Edit) : Prop := ∀ e, ¬s.Malformed e

theorem assign_eq_error {spec : Spec} {command : Command} {values : Json} {e : Error} :
    assign spec command values = .error e ↔ (∀ fields, values ≠ .object fields) ∧
      (command = .insert → values ≠ .null) ∧ e = .invalidValues (.notColumns values) := by
  cases values with
  | object fields => exact ⟨nofun, fun h => absurd rfl (h.1 fields)⟩
  | null =>
    by_cases inserted : command = .insert
    · simp [assign, inserted]
    · simp [assign, inserted, eq_comm]
  | bool | number | string | array => simp [assign, eq_comm]

/-- A step is refused if and only if it is malformed, whatever the query is so far. -/
theorem apply_eq_error {spec : Spec} {s : Edit} {e : Error} :
    s.apply spec = .error e ↔ s.Malformed e := by
  constructor
  · intro refused
    cases s with
    | filter conditions => exact .filter (bind_pure_eq_error.mp refused)
    | having conditions => exact .having (bind_pure_eq_error.mp refused)
    | joinValue join => exact .joinValue (bind_pure_eq_error.mp refused)
    | insert values =>
      obtain ⟨others, given, rfl⟩ := assign_eq_error.mp refused
      exact .insert others (given rfl)
    | update values =>
      obtain ⟨others, -, rfl⟩ := assign_eq_error.mp refused
      exact .update others
    | _ => nomatch refused
  · intro mistake
    cases mistake with
    | filter unread | having unread | joinValue unread => exact bind_pure_eq_error.mpr unread
    | insert others given => exact assign_eq_error.mpr ⟨others, fun _ => given, rfl⟩
    | update others => exact assign_eq_error.mpr ⟨others, nofun, rfl⟩

end Edit

namespace Draft

/-- The first mistake in a chain of calls on a table, and what it is refused for. -/
inductive FirstMistake (table : String) : List Edit → Error → Prop where
  | table (edits : List Edit) (blank : isBlankText table = true) :
      FirstMistake table edits (.invalidValues .emptyTable)
  | step (before : List Edit) {bad : Edit} {e : Error} (after : List Edit)
      (named : isBlankText table = false) (sound : ∀ s ∈ before, s.WellFormed)
      (mistake : bad.Malformed e) : FirstMistake table (before ++ bad :: after) e

theorem edit_refusal_of_wellFormed {s : Edit} (h : s.WellFormed) (d : Draft) :
    (d.edit s).refusal = d.refusal := by
  unfold edit
  cases applied : s.apply d.spec with
  | ok spec => rfl
  | error e => exact absurd (Edit.apply_eq_error.mp applied) (h e)

theorem edit_refusal_of_malformed {s : Edit} {e : Error} (h : s.Malformed e) (d : Draft) :
    (d.edit s).refusal = d.refusal.or (some e) := by
  unfold edit
  rw [Edit.apply_eq_error.mpr h]

/-- Once a draft is refused, no step changes what for. -/
theorem edit_refusal_of_refused {d : Draft} {e : Error} (h : d.refusal = some e) (s : Edit) :
    (d.edit s).refusal = some e := by
  by_cases sound : s.WellFormed
  · rw [edit_refusal_of_wellFormed sound, h]
  · obtain ⟨f, mistake⟩ := Classical.not_forall_not.mp sound
    rw [edit_refusal_of_malformed mistake, h, Option.some_or]

theorem foldl_refusal_of_refused (edits : List Edit) {d : Draft} {e : Error}
    (h : d.refusal = some e) : (edits.foldl edit d).refusal = some e := by
  induction edits generalizing d with
  | nil => exact h
  | cons s edits ih => exact ih (edit_refusal_of_refused h s)

theorem foldl_refusal_of_wellFormed {edits : List Edit} (sound : ∀ s ∈ edits, s.WellFormed)
    (d : Draft) : (edits.foldl edit d).refusal = d.refusal := by
  induction edits generalizing d with
  | nil => rfl
  | cons s edits ih =>
    obtain ⟨first, others⟩ := List.forall_mem_cons.mp sound
    rw [List.foldl_cons, ih others, edit_refusal_of_wellFormed first]

theorem refusal_of_firstMistake {table : String} {edits : List Edit} {e : Error}
    (h : FirstMistake table edits e) : (ofEdits table edits).refusal = some e := by
  cases h with
  | table edits blank => exact foldl_refusal_of_refused edits (if_pos blank)
  | step before after named sound mistake =>
    rw [ofEdits, List.foldl_append, List.foldl_cons]
    apply foldl_refusal_of_refused
    rw [edit_refusal_of_malformed mistake, foldl_refusal_of_wellFormed sound, start, named]
    rfl

/-- All steps of a chain can be taken, or there is a first one that cannot. -/
theorem wellFormed_or_malformed (edits : List Edit) :
    (∀ s ∈ edits, s.WellFormed) ∨ ∃ before bad after e, edits = before ++ bad :: after ∧
      (∀ s ∈ before, s.WellFormed) ∧ bad.Malformed e := by
  induction edits with
  | nil => exact .inl nofun
  | cons s edits ih =>
    by_cases first : s.WellFormed
    · rcases ih with others | ⟨before, bad, after, e, rfl, sound, mistake⟩
      · exact .inl (List.forall_mem_cons.mpr ⟨first, others⟩)
      · exact .inr ⟨s :: before, bad, after, e, rfl, List.forall_mem_cons.mpr ⟨first, sound⟩,
          mistake⟩
    · obtain ⟨e, mistake⟩ := Classical.not_forall_not.mp first
      exact .inr ⟨[], s, edits, e, rfl, nofun, mistake⟩

/-- A chain with a mistake has a first one. -/
theorem exists_firstMistake {table : String} {edits : List Edit}
    (malformed : isBlankText table = true ∨ ∃ s ∈ edits, ∃ e, s.Malformed e) :
    ∃ e, FirstMistake table edits e := by
  cases named : isBlankText table with
  | true => exact ⟨_, .table edits named⟩
  | false =>
    obtain ⟨s, hs, e, mistake⟩ := malformed.resolve_left (by rw [named]; decide)
    rcases wellFormed_or_malformed edits with sound | ⟨before, _, after, f, rfl, sound, first⟩
    · exact absurd mistake (sound s hs e)
    · exact ⟨f, .step before after named sound first⟩

/-- A chain is refused for its first mistake, and for nothing else. -/
theorem checked_eq_error {table : String} {edits : List Edit} {e : Error} :
    (ofEdits table edits).checked = .error e ↔ FirstMistake table edits e := by
  constructor
  · intro refused
    by_cases malformed : isBlankText table = true ∨ ∃ s ∈ edits, ∃ e, s.Malformed e
    · obtain ⟨f, first⟩ := exists_firstMistake malformed
      rw [checked, refusal_of_firstMistake first] at refused
      exact Except.error.inj refused ▸ first
    · -- without a mistake no step is refused, so there is nothing to keep
      obtain ⟨named, sound⟩ := not_or.mp malformed
      have accepted : (ofEdits table edits).refusal = none := by
        rw [ofEdits, foldl_refusal_of_wellFormed fun s hs e mistake => sound ⟨s, hs, e, mistake⟩,
          start, if_neg named]
      rw [checked, accepted] at refused
      contradiction
  · intro first
    rw [checked, refusal_of_firstMistake first]

/-- What has a step of its own to do first is refused before it only if the query is. -/
theorem refused_iff {W α : Type} {d : Draft} {e : Error} {next : Spec → Act W α}
    (goes : ∀ spec outcome, (next spec).run ≠ .done outcome) :
    Act.Refused (do next (← .ofExcept d.checked)) e ↔ d.checked = .error e := by
  cases d.checked with
  | error f =>
    constructor
    · rintro ⟨stepless, -⟩
      cases stepless
      rfl
    · rintro ⟨⟩
      exact ⟨rfl, fun _ => rfl⟩
  | ok spec => exact ⟨fun h => absurd h.stepless (goes spec _), fun h => (nomatch h)⟩

/-- A chain of steps has a first mistake if some step of it is malformed or the name of the table at
its start is blank. Whatever comes after this mistake, and whether or not column types are to be
looked up, the statement of the query, its rows, their number and a sum over them are refused for
it, and for nothing else, before anything is done. -/
theorem refused_for_first_mistake {σ : Type} [Link σ] (table : String) (edits : List Edit)
    (n : Nat) :
    let d := ofEdits table edits
    ((isBlankText table = true ∨ ∃ s ∈ edits, ∃ e, s.Malformed e) ↔
        ∃ e, FirstMistake table edits e) ∧
      ∀ e, ((toSql (σ := σ) n d).Refused e ↔ FirstMistake table edits e) ∧
        ((execute (σ := σ) n d).Refused e ↔ FirstMistake table edits e) ∧
        (∀ key, (count (σ := σ) n d key).Refused e ↔ FirstMistake table edits e) ∧
        ∀ key, (sum (σ := σ) n d key).Refused e ↔ FirstMistake table edits e := by
  intro d
  refine ⟨⟨exists_firstMistake, ?_⟩, fun e => ?_⟩
  · rintro ⟨e, ⟨_, blank⟩ | ⟨before, after, named, sound, mistake⟩⟩
    · exact .inl blank
    · exact .inr ⟨_, List.mem_append_right before List.mem_cons_self, e, mistake⟩
  · -- each of them has a look at the session first
    rw [← checked_eq_error]
    exact ⟨refused_iff fun _ _ => nofun, refused_iff fun _ _ => nofun,
      fun _ => refused_iff fun _ _ => nofun, fun _ => refused_iff fun _ _ => nofun⟩

/-- An update without columns is no update; neither a filter before it that can be read nor one
after it that cannot changes this, and nothing is deleted. -/
theorem refused_for_first_mistake_update :
    let adults : Edit := .filter (.object [("age", .object [("$gte", .ofInt 18)])])
    let edits := [adults, .update .null, .filter (.bool true), .delete]
    let e : Error := .invalidValues (.notColumns .null)
    FirstMistake "users" edits e ∧ (execute (σ := Script) 1 (ofEdits "users" edits)).Refused e := by
  intro adults edits e
  have mistake : Edit.Malformed (.update .null) e := .update (by simp)
  have sound : adults.WellFormed := by
    show Edit.WellFormed (.filter _)
    rintro f ⟨unread⟩
    contradiction
  have first : FirstMistake "users" edits e :=
    .step [adults] _ (by decide) (List.forall_mem_singleton.mpr sound) mistake
  obtain ⟨-, refused⟩ := refused_for_first_mistake (σ := Script) "users" edits 1
  exact ⟨first, (refused e).2.1.mpr first⟩

end Draft
end DataAccess
