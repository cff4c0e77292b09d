import DataAccess.Link.Scripted
import DataAccess.Proofs.Schema.Catalogue

/-!
What becomes of a catalogue in the course of time. A table is looked up once until it is forgotten,
by whomever and however often it is wanted.
-/
namespace DataAccess.Schema
variable {σ α : Type} [Link σ]

namespace Revised
variable {past : List (Sight Schema Lookup)} {s t : Schema} {table : String}

/-- Columns that were not known are those that were told last. -/
theorem loads {columns : TableSchema} (h : Revised past s t)
    (before : Assoc.get? s table ≠ some columns) (after : Assoc.get? t table = some columns) :
    ∃ rows, columns = .ofRows rows ∧ past.getLast? = some (.seen (told (table, rows))) ∧
      Assoc.get? s table = none ∧ t = Assoc.put s table (.ofRows rows) := by
  cases h with
  | same => exact absurd after before
  | @loaded other rows missing last =>
    rw [Assoc.get?_put] at after
    split_ifs at after with ho
    · subst ho
      exact ⟨rows, (Option.some.inj after).symm, last, missing, rfl⟩
    · exact absurd after before
  | forgotten other =>
    rw [Assoc.get?_erase] at after
    split_ifs at after
    exact absurd after before

/-- A table that is no longer known was forgotten. -/
theorem forgets (h : Revised past s t) (before : Assoc.get? s table ≠ none)
    (after : Assoc.get? t table = none) : t = Assoc.erase s table := by
  cases h with
  | same => exact absurd after before
  | @loaded other rows missing last =>
    rw [Assoc.get?_put] at after
    split_ifs at after
    exact absurd after before
  | forgotten other =>
    rw [Assoc.get?_erase] at after
    split_ifs at after with ho
    · rw [ho]
    · exact absurd after before

end Revised

section course
variable (k : Nat) (c : Crowd (World σ) α)

abbrev guardAt : Guard (World σ) Schema Lookup :=
  guard k fun n => (c.world.session n).database.catalogue

def after (schedule : List Nat) : Schema := (c.follow schedule).world.catalogue k

/-- After some moves, task `i` is at the catalogue and looks up a table with its next one. -/
def LooksUp (schedule : List Nat) (i : Nat) (table : String) : Prop :=
  (c.follow schedule).holder (.catalogue k) = some i ∧
    ∃ rows, ⟨columnsParams table, rows⟩ ∈
      (c.follow schedule).world.lookups (c.follow (schedule ++ [i])).world

/-- After some moves, task `i` puts a table into the catalogue with the columns it was told last. -/
def Loads (schedule : List Nat) (i : Nat) (table : String) (rows : List Record) : Prop :=
  (c.observed (Crowd.sights (guardAt k c) i) i schedule).getLast? =
      some (.seen (told (table, rows))) ∧
    Assoc.get? (after k c schedule) table = none ∧
      after k c (schedule ++ [i]) = Assoc.put (after k c schedule) table (.ofRows rows)

def Forgets (schedule : List Nat) (i : Nat) (table : String) : Prop :=
  Assoc.get? (after k c schedule) table ≠ none ∧
    after k c (schedule ++ [i]) = Assoc.erase (after k c schedule) table

/-- After some moves, a table has the columns of the last time that it was put there. -/
def LastLoaded (schedule : List Nat) (table : String) (columns : TableSchema) : Prop :=
  ∃ first i rest rows, schedule = first ++ i :: rest ∧ Loads k c first i table rows ∧
    columns = .ofRows rows ∧
      ∀ more, more <+: rest → Assoc.get? (after k c (first ++ i :: more)) table = some columns

/-- What becomes of a catalogue, however the tasks take turns. -/
structure Maintained : Prop where
  /-- Only a missing table is looked up. -/
  missing (schedule : List Nat) (i : Nat) (table : String) :
    LooksUp k c schedule i table → Assoc.get? (after k c schedule) table = none
  /-- Whatever a task does, at most one table is loaded or forgotten. -/
  revised (schedule : List Nat) (i : Nat) :
    Revised (c.observed (Crowd.sights (guardAt k c) i) i schedule) (after k c schedule)
      (after k c (schedule ++ [i]))
  /-- Before a table that was loaded is looked up again it is forgotten. -/
  once (first : List Nat) (i : Nat) (between : List Nat) (j : Nat) (table : String)
      (rows : List Record) :
    Loads k c first i table rows → LooksUp k c (first ++ i :: between) j table →
      ∃ before f rest, between = before ++ f :: rest ∧ Forgets k c (first ++ i :: before) f table
  /-- What is known of a table is what it was last loaded with. -/
  latest (schedule : List Nat) (table : String) (columns : TableSchema) :
    Assoc.get? (after k c schedule) table = some columns → LastLoaded k c schedule table columns
  /-- What a task leaves is the catalogue of that time, with all tables as they were last loaded. -/
  left (schedule : List Nat) (i : Nat) (later : List Nat) (t : Schema) :
    .left t ∈ (c.follow schedule).observed (Crowd.sights (guardAt k c) i) i later →
      ∃ first rest, later = first ++ i :: rest ∧ after k c (schedule ++ first) = t ∧
        ∀ table columns, Assoc.get? t table = some columns →
          LastLoaded k c (schedule ++ first) table columns
  /-- Whoever has tables ensured gets just those tables, as the catalogue has them when he leaves
  it. If a look-up fails, the tables before are kept and its own is not. -/
  ensured (schedule : List Nat) (i n : Nat) (tables : List String)
      (next : Except Error Schema → Routine (World σ) α) (later : List Nat) :
    (c.follow schedule).tasks[i]? = some ((ensure n tables).run.bind next) →
      (c.world.session n).database.catalogue = k →
        (c.follow schedule).Serves (guardAt k c) i next [] (fun _ seen outcome =>
          ∃ s tries t, seen = .entered s :: tries.map .seen ++ [.left t] ∧
            Ensured tables s tries t (outcome.map fun _ => ()) ∧
            ∀ snapshot, outcome = .ok snapshot → ∀ table, Assoc.get? snapshot table =
              if table ∈ tables then Assoc.get? t table else none) later

end course

section maintained
variable {k : Nat} {c : Crowd (World σ) α} (guarded : c.Guarded (guardAt k c) fun _ => [])
include guarded

theorem lawful (schedule : List Nat) (i : Nat) :
    (guardAt k c).law ((c.follow schedule).known (guardAt k c) i)
      (c.observed (Crowd.sights (guardAt k c) i) i schedule)
      (c.follow schedule).world (c.follow (schedule ++ [i])).world := by
  rw [c.follow_concat]
  simpa using ((guarded.follow schedule).move i).2.1

theorem LooksUp.missing {schedule : List Nat} {i : Nat} {table : String}
    (h : LooksUp k c schedule i table) : Assoc.get? (after k c schedule) table = none := by
  obtain ⟨holds, rows, looked⟩ := h
  have known : after k c schedule ∈ (c.follow schedule).known (guardAt k c) i := if_pos holds
  obtain ⟨other, same, absent⟩ := (lawful guarded schedule i).1 _ known _ looked
  rwa [columnsParams_injective same]

/-- A table that was known and is missing was forgotten in between. -/
theorem forgets_between {first : List Nat} {i : Nat} {between : List Nat} {table : String}
    (known : Assoc.get? (after k c (first ++ [i])) table ≠ none)
    (gone : Assoc.get? (after k c (first ++ i :: between)) table = none) :
    ∃ before f rest, between = before ++ f :: rest ∧
      Forgets k c (first ++ i :: before) f table := by
  let missing (d : Crowd (World σ) α) : Prop := Assoc.get? (d.world.catalogue k) table = none
  have later (more : List Nat) :
      (c.follow (first ++ [i])).follow more = c.follow (first ++ i :: more) := by
    rw [← c.follow_append, List.append_assoc]
    rfl
  have now : missing ((c.follow (first ++ [i])).follow between) := by
    rw [later]
    exact gone
  obtain ⟨before, f, rest, rfl, still, since⟩ := Crowd.holds_since (P := missing) known now
  have lost := since [] List.nil_prefix
  rw [later] at still lost
  have step := (lawful guarded (first ++ i :: before) f).2
  refine ⟨before, f, rest, rfl, still, step.forgets still ?_⟩
  rw [List.append_assoc]
  exact lost

theorem lastLoaded (empty : c.world.catalogue k = []) {schedule : List Nat} {table : String}
    {columns : TableSchema} (now : Assoc.get? (after k c schedule) table = some columns) :
    LastLoaded k c schedule table columns := by
  let holds (d : Crowd (World σ) α) : Prop :=
    Assoc.get? (d.world.catalogue k) table = some columns
  have unknown : ¬ holds c := by
    show Assoc.get? (c.world.catalogue k) table ≠ some columns
    rw [empty]
    exact nofun
  obtain ⟨first, i, rest, rfl, before, since⟩ := Crowd.holds_since (P := holds) unknown now
  obtain ⟨rows, told, last, absent, put⟩ :=
    (lawful guarded first i).2.loads before (since [] List.nil_prefix)
  exact ⟨first, i, rest, rows, rfl, ⟨last, absent, put⟩, told, since⟩

/-- Whoever comes to a catalogue does not hold its gate yet. -/
theorem known_of_ensures {schedule : List Nat} {i n : Nat} {tables : List String}
    {next : Except Error Schema → Routine (World σ) α}
    (ht : (c.follow schedule).tasks[i]? = some ((ensure n tables).run.bind next))
    (hn : (c.world.session n).database.catalogue = k) :
    (c.follow schedule).known (guardAt k c) i = none := by
  let d := c.follow schedule
  have now := guarded.follow schedule
  obtain ⟨-, -, -, looked⟩ := now.tasks i _ ht d.world now.base fun s hs =>
    (Crowd.known_eq_some hs).2
  have entering : (guardAt k c).Secures ((d.known (guardAt k c) i).map _) _
      (.enter (.catalogue (d.world.session n).database.catalogue) _) Guard.Free := looked
  have filed : (d.world.session n).database.catalogue = k := (now.base n).trans hn
  rw [filed] at entering
  exact Option.map_eq_none_iff.mp entering.free_of_enter

theorem maintained (empty : c.world.catalogue k = []) : Maintained k c where
  missing _ _ _ looks := looks.missing guarded
  revised schedule i := (lawful guarded schedule i).2
  once first i between j table rows loads looks := by
    refine forgets_between guarded ?_ (looks.missing guarded)
    rw [loads.2.2, Assoc.get?_put, if_pos rfl]
    exact nofun
  latest _ _ _ now := lastLoaded guarded empty now
  left schedule i later t h := by
    obtain ⟨first, rest, rfl, view⟩ := Crowd.left_of_observed h
    have now : after k c (schedule ++ first) = t := by
      rw [after, c.follow_append]
      exact view
    refine ⟨first, rest, rfl, now, fun table columns ht => lastLoaded guarded empty ?_⟩
    rwa [now]
  ensured schedule i n tables next later ht hn := by
    refine Crowd.serves (guarded.follow schedule) ht ?_ later
    rw [known_of_ensures guarded ht hn]
    refine (secures_ensure hn tables).mono ?_
    rintro _ _ outcome ⟨-, s, tries, t, rfl, ensured, snapshot⟩
    refine ⟨s, tries, t, rfl, ensured, fun got h table => ?_⟩
    rw [snapshot got h]
    exact get?_restricted t tables table

end maintained

/-- However the tasks of any number of users take turns, and whatever the link refuses: a table is
looked up only while the catalogue does not know it, so that once it was loaded it is looked up
again only after somebody has forgotten it. Whoever has tables ensured gets just those tables, each
as it was last loaded; if a look-up fails, the tables before it are kept, its own table is not
known, and all others are as they were. -/
theorem catalogue_maintained {w : World σ} {k : Nat} (empty : w.catalogue k = []) {commits : Prop}
    {tasks : List (Act (World σ) α)} (active : ∀ t ∈ tasks, Activity commits t) :
    Maintained k (Crowd.start w tasks) :=
  maintained (Crowd.start_guarded (fun _ => rfl) fun _ ht => (active _ ht).composed guarded) empty

/-- Two sessions on one database. The first look-up of the one finds no connection; the table is
looked up for the other one, forgotten, and looked up again, when it has a column more. -/
theorem catalogue_maintained_two_sessions :
    let row (column udt : String) : Record :=
      [("column_name", .string column), ("udt_name", .string udt)]
    let w : World Tape := { wire := { link :=
      { failingConnects := 1
        answers := [[row "id" "int4"], [row "id" "uuid", row "name" "text"],
          [row "id" "int8", row "title" "text"]] } } }
    let tasks : List (Act (World Tape) Schema) :=
      [ensure 1 ["posts"], ensure 2 ["posts", "users", "posts"],
        forget 1 "posts" >>= fun _ => ensure 1 ["posts"]]
    let rounds (n : Nat) := (List.replicate n [0, 1, 2]).flatten
    let users : TableSchema := [("id", ⟨"uuid"⟩), ("name", ⟨"text"⟩)]
    let posts : TableSchema := [("id", ⟨"int8"⟩), ("title", ⟨"text"⟩)]
    w.catalogue 0 = [] ∧ (∀ t ∈ tasks, Activity False t) ∧
      Maintained 0 (Crowd.start w tasks) ∧
      after 0 (Crowd.start w tasks) (rounds 30) = [("posts", [("id", ⟨"int4"⟩)])] ∧
      after 0 (Crowd.start w tasks) (rounds 90) = [("users", users), ("posts", posts)] ∧
        LastLoaded 0 (Crowd.start w tasks) (rounds 90) "posts" posts := by
  intro row w tasks rounds users posts
  have active : ∀ t ∈ tasks, Activity False t := by
    simp only [tasks, List.forall_mem_cons]
    exact ⟨.ensure 1 _, .ensure 2 _, .bind (.forget 1 _) fun _ => .ensure 1 _, by simp⟩
  have kept : Maintained 0 (Crowd.start w tasks) := catalogue_maintained rfl active
  have before : after 0 (Crowd.start w tasks) (rounds 30) = [("posts", [("id", ⟨"int4"⟩)])] := by
    decide +kernel
  have now : after 0 (Crowd.start w tasks) (rounds 90) = [("users", users), ("posts", posts)] := by
    decide +kernel
  exact ⟨rfl, active, kept, before, now, kept.latest (rounds 90) "posts" posts (by rw [now]; rfl)⟩

end DataAccess.Schema
