import DataAccess.Cache.Access
import DataAccess.Proofs.Query.Running

/-!
All that users can have done: operations of sessions, queries, look-ups of column types, and
caches. Whatever they have done is done by steps of sessions.
-/
namespace DataAccess
open Session (Moves)
variable {σ : Type} [Link σ] {commits : Prop} {n : Nat}

/-- The caller's own SQL is no COMMIT, unless callers may send one. -/
def CallersCommit (commits : Prop) (sql : String) : Prop := sql = "COMMIT" → commits

theorem CallersCommit.of_not_own {sql : String} (h : isOwn sql = false) :
    CallersCommit commits sql := by
  rintro rfl
  exact absurd h (by decide)

omit [Link σ] in
theorem World.unseen_putSession {w : World σ} {s : Session}
    (number : s.number = (w.session n).number) (config : s.config = (w.session n).config)
    (database : s.database = (w.session n).database)
    (connection : s.connection = (w.session n).connection)
    (history : s.history = (w.session n).history) (events : s.events = (w.session n).events) :
    w.Unseen (w.putSession n s) := by
  have field {α : Type} (f : Session → α) (hf : f s = f (w.session n)) (m : Nat) :
      f ((w.putSession n s).session m) = f (w.session m) := by
    rw [session_putSession]
    split_ifs with hm
    · exact hm ▸ hf
    · rfl
  exact ⟨⟨rfl, field _ number, field _ config, field _ database, field _ connection⟩,
    field _ history, field _ events⟩

omit [Link σ] in
theorem World.unseen_putCatalogue (w : World σ) (c : Nat) (tables : Schema) :
    w.Unseen (w.putCatalogue c tables) :=
  ⟨w.putCatalogue_aside c tables, fun _ => rfl, fun _ => rfl⟩

/-- A property that all has that users can have done without caches. -/
structure Errands (commits : Prop) (C : (α : Type) → Routine (World σ) α → Prop) : Prop
    extends Session.Statements (CallersCommit commits) C where
  ensure (n : Nat) (tables : List String) : C _ (Schema.ensure n tables).run
  forget (n : Nat) (table : String) : C _ (Schema.forget n table).run

/-- A property that all that users can have done has. -/
structure Activities (commits : Prop) (C : (α : Type) → Routine (World σ) α → Prop) : Prop
    extends Errands commits C where
  lookup (n : Nat) (entity : String) (ids : Record) : C _ (Cache.lookupStep n entity ids).run
  change {α : Type} (n : Nat) (entity : String) (f : Cache → Except Error (α × Cache)) :
    C _ (Cache.change n entity f).run
  exclusive {α : Type} (n : Nat) (entity : String) {task : Act (World σ) α} :
    C _ task.run → C _ (Cache.exclusive n entity task).run

/-- Queries are written by none of the statements that sessions send of their own accord. -/
theorem Draft.statement_gives (spec : Spec) :
    (statement (σ := σ) n spec).Gives fun c => isOwn c.sql = false := by
  refine Act.gives_bind fun session => ?_
  dsimp only
  split
  · exact Act.gives_bind fun schema => fun c hc => compile_not_own hc
  · exact fun c hc => compile_not_own hc

section
variable {C : (α : Type) → Routine (World σ) α → Prop}

namespace Errands
variable (parts : Errands commits C)
include parts

theorem statement (n : Nat) (spec : Spec) : C _ (Draft.statement n spec).run := by
  refine parts.act_bind (parts.read _) fun session => ?_
  dsimp only
  split
  · exact parts.act_bind (parts.ensure n _) fun _ => parts.ofExcept _
  · exact parts.ofExcept _

theorem answer (n : Nat) (spec : Spec) : C _ (Draft.answer n spec).run :=
  parts.act_bind_of_gives (parts.statement n spec) (Draft.statement_gives spec) fun _ own =>
    parts.execWith n (CallersCommit.of_not_own own) _ _

theorem countRows (n : Nat) (spec : Spec) (key : Option String) :
    C _ (Draft.countRows n spec key).run := by
  refine parts.act_bind (parts.read _) fun session => ?_
  exact parts.act_bind (parts.answer n _) fun _ => parts.done _

theorem page (n : Nat) (spec : Spec) (rows : List Record) : C _ (Draft.page n spec rows).run := by
  unfold Draft.page
  split
  · exact parts.done _
  · exact parts.act_bind (parts.countRows n spec none) fun _ => parts.done _

theorem execute (n : Nat) (d : Draft) : C _ (d.execute n).run := by
  refine parts.act_bind (parts.ofExcept _) fun spec => ?_
  refine parts.act_bind (parts.answer n _) fun output => ?_
  split
  · exact parts.done _
  · exact parts.act_bind (parts.page n _ _) fun _ => parts.done _

theorem toSql (n : Nat) (d : Draft) : C _ (d.toSql n).run :=
  parts.act_bind (parts.ofExcept _) fun spec => parts.statement n spec

theorem count (n : Nat) (d : Draft) (key : Option String) : C _ (d.count n key).run :=
  parts.act_bind (parts.ofExcept _) fun spec => parts.countRows n spec key

theorem sum (n : Nat) (d : Draft) (key : String) : C _ (d.sum n key).run := by
  refine parts.act_bind (parts.ofExcept _) fun spec => ?_
  refine parts.act_bind (parts.read _) fun session => ?_
  exact parts.act_bind (parts.answer n _) fun _ => parts.done _

end Errands

namespace Activities
variable (parts : Activities commits C)
include parts

theorem get (n : Nat) (entity : String) (ids : Json) : C _ (Cache.get n entity ids).run :=
  parts.act_bind (parts.ofExcept _) fun _ => parts.exclusive n entity (parts.lookup n entity _)

theorem getOrResolve (n : Nat) (entity : String) (ids : Json)
    {resolver : Act (World σ) (Option Record)} (h : C _ resolver.run) :
    C _ (Cache.getOrResolve n entity ids resolver).run := by
  refine parts.act_bind (parts.ofExcept _) fun ids => parts.exclusive n entity ?_
  refine parts.act_bind (parts.lookup n entity ids) fun found => ?_
  split
  · exact parts.done _
  · refine parts.act_bind h fun resolved => ?_
    exact parts.act_bind (parts.change n entity _) fun _ => parts.done _

theorem lengthOf (n : Nat) (entity : String) : C _ (Cache.lengthOf (σ := σ) n entity).run :=
  parts.act_bind (parts.exclusive n entity (parts.read _)) fun _ => parts.done _

end Activities

end

/-- Tables are ensured by statements and by putting columns into a catalogue. -/
theorem Session.Statements.ensureTables {admits : String → Prop}
    {C : (α : Type) → Routine (World σ) α → Prop} (parts : Session.Statements admits C)
    (columns : admits Schema.columnsSql) {catalogue : Nat}
    (put : ∀ table columns, C _ (Act.modify fun w : World σ =>
      w.putCatalogue catalogue (Assoc.put (w.catalogue catalogue) table columns)).run)
    (n : Nat) (tables : List String) : C _ (Schema.ensureTables n catalogue tables).run := by
  induction tables with
  | nil => exact parts.done _
  | cons table rest ih =>
    refine parts.act_bind (parts.act_bind (parts.read _) fun known => ?_) fun _ => ih
    split
    · exact parts.done _
    · refine parts.act_bind ?_ (put table)
      exact parts.act_bind (parts.execWith n columns _ _) fun _ => parts.done _

namespace Schema
open Session (moves)

theorem moves_ensure (tables : List String) :
    Moves (σ := σ) (CallersCommit commits) (ensure n tables) := by
  refine moves.act_bind (moves.read _) fun session => Routine.Only.holding ?_ _
  refine moves.act_bind (moves.ensureTables ?_ ?_ n tables) fun _ => moves.read _
  · exact CallersCommit.of_not_own (by decide)
  · exact fun table columns => ⟨.unseen fun w => w.unseen_putCatalogue _ _, fun _ => trivial⟩

theorem moves_forget (table : String) :
    Moves (σ := σ) (CallersCommit commits) (forget n table) := by
  refine moves.act_bind (moves.read _) fun session => ?_
  refine Routine.Only.holding (r := .step _ .done) ⟨?_, fun _ => trivial⟩ _
  exact .unseen fun w => w.unseen_putCatalogue _ _

end Schema

theorem Cache.moves_change {α : Type} {entity : String} (f : Cache → Except Error (α × Cache)) :
    Moves (σ := σ) (CallersCommit commits) (change n entity f) := by
  refine ⟨.unseen fun w => ?_, fun _ => trivial⟩
  dsimp only
  split
  · exact w.unseen_putSession rfl rfl rfl rfl rfl rfl
  · exact .refl w

/-- Whatever users have done is done by steps of sessions. -/
theorem Activities.moves :
    Activities commits fun _ (r : Routine (World σ) _) =>
      r.Only (World.Step (CallersCommit commits)) where
  toStatements := Session.moves
  ensure _ tables := Schema.moves_ensure tables
  forget _ table := Schema.moves_forget table
  lookup _ _ _ :=
    ⟨.unseen fun w => w.unseen_putSession rfl rfl rfl rfl rfl rfl, fun _ => trivial⟩
  change _ _ f := Cache.moves_change f
  exclusive _ _ _ h := Routine.Only.holding h _

/-- Tasks made of all that users can have done, one after the other, with any control flow between
them. Callers send a COMMIT themselves only if `commits` says so. -/
inductive Activity {σ : Type} [Link σ] (commits : Prop) : {α : Type} → Act (World σ) α → Prop
  | ofExcept {α : Type} (outcome : Except Error α) : Activity commits (.ofExcept outcome)
  | bind {α β : Type} {task : Act (World σ) α} {next : α → Act (World σ) β} :
    Activity commits task → (∀ a, Activity commits (next a)) → Activity commits (task >>= next)
  | outcome {α : Type} {task : Act (World σ) α} :
    Activity commits task → Activity commits task.outcome
  | read {α : Type} (f : World σ → α) : Activity commits (.read f)
  | retain (n : Nat) : Activity commits (Session.retain n)
  | release (n : Nat) : Activity commits (Session.release n)
  | begin (n : Nat) : Activity commits (Session.begin n)
  | endTransaction (n : Nat) (failure : Option Error) (rethrow : Bool) :
    Activity commits (Session.endTransaction n failure rethrow)
  | retained {α : Type} (n : Nat) {task : Act (World σ) α} :
    Activity commits task → Activity commits (Session.retained n task)
  | transaction {α : Type} (n : Nat) {task : Act (World σ) α} :
    Activity commits task → Activity commits (Session.transaction n task)
  | statement (n : Nat) {sql : String} (params : List Json) :
    CallersCommit commits sql → Activity commits (Session.statement n sql params)
  | execWith (n : Nat) {sql : String} (params : List Json) (options : ExecOptions) :
    CallersCommit commits sql → Activity commits (Session.execWith n sql params options)
  | close (n : Nat) : Activity commits (Session.close n)
  | ensure (n : Nat) (tables : List String) : Activity commits (Schema.ensure n tables)
  | forget (n : Nat) (table : String) : Activity commits (Schema.forget n table)
  | toSql (n : Nat) (d : Draft) : Activity commits (d.toSql n)
  | execute (n : Nat) (d : Draft) : Activity commits (d.execute n)
  | count (n : Nat) (d : Draft) (key : Option String) : Activity commits (d.count n key)
  | sum (n : Nat) (d : Draft) (key : String) : Activity commits (d.sum n key)
  | get (n : Nat) (entity : String) (ids : Json) : Activity commits (Cache.get n entity ids)
  | getOrResolve (n : Nat) (entity : String) (ids : Json)
    {resolver : Act (World σ) (Option Record)} :
    Activity commits resolver → Activity commits (Cache.getOrResolve n entity ids resolver)
  | store (n : Nat) (entity : String) (values : Json) :
    Activity commits (Cache.setIn n entity values)
  | update (n : Nat) (entity : String) (ids values : Json) :
    Activity commits (Cache.updateIn n entity ids values)
  | patch (n : Nat) (entity : String) (ids delta : Json) :
    Activity commits (Cache.patchIn n entity ids delta)
  | invalidate (n : Nat) (entity : String) (ids : Json) :
    Activity commits (Cache.invalidateIn n entity ids)
  | lengthOf (n : Nat) (entity : String) : Activity commits (Cache.lengthOf n entity)

/-- What all that users can have done has, an activity has. -/
theorem Activity.composed {α : Type} {C : (α : Type) → Routine (World σ) α → Prop}
    (parts : Activities commits C) {task : Act (World σ) α} (h : Activity commits task) :
    C _ task.run := by
  induction h with
  | ofExcept outcome => exact parts.ofExcept outcome
  | bind _ _ iht ihn => exact parts.act_bind iht ihn
  | outcome _ ih => exact parts.outcome ih
  | read f => exact parts.read f
  | retain n => exact parts.retain n
  | release n => exact parts.release n
  | begin n => exact parts.begin n
  | endTransaction n failure rethrow => exact parts.endTransaction n failure rethrow
  | retained n _ ih => exact parts.retained n ih
  | transaction n _ ih => exact parts.transaction n ih
  | statement n params h => exact parts.toTurns.statement n h params
  | execWith n params options h => exact parts.execWith n h params options
  | close n => exact parts.close n
  | ensure n tables => exact parts.ensure n tables
  | forget n table => exact parts.forget n table
  | toSql n d => exact parts.toSql n d
  | execute n d => exact parts.execute n d
  | count n d key => exact parts.count n d key
  | sum n d key => exact parts.sum n d key
  | get n entity ids => exact parts.get n entity ids
  | getOrResolve n entity ids _ ih => exact parts.getOrResolve n entity ids ih
  | store n entity values => exact parts.exclusive n entity (parts.change n entity _)
  | update n entity ids values => exact parts.exclusive n entity (parts.change n entity _)
  | patch n entity ids delta => exact parts.exclusive n entity (parts.change n entity _)
  | invalidate n entity ids => exact parts.exclusive n entity (parts.change n entity _)
  | lengthOf n entity => exact parts.lengthOf n entity

theorem Activity.moves {α : Type} {task : Act (World σ) α} (h : Activity commits task) :
    Moves (CallersCommit commits) task := h.composed Activities.moves

/-- All that tasks do is done by steps of sessions. -/
theorem Activity.start_moves {α : Type} {w : World σ} {tasks : List (Act (World σ) α)}
    (active : ∀ t ∈ tasks, Activity commits t) :
    ∀ t ∈ (Crowd.start w tasks).tasks, t.Only (World.Step (CallersCommit commits)) := by
  intro t ht
  obtain ⟨task, hm, rfl⟩ := List.mem_map.mp ht
  exact (active task hm).moves

/-- What every step keeps holds in every order of the tasks' moves. -/
theorem Activity.invariant {α : Type} {P : World σ → Prop}
    (step : ∀ f, World.Step (CallersCommit commits) f → ∀ w, P w → P (f w)) {w : World σ}
    (start : P w) {tasks : List (Act (World σ) α)} (active : ∀ t ∈ tasks, Activity commits t)
    (schedule : List Nat) : P ((Crowd.start w tasks).follow schedule).world :=
  Crowd.follow_invariant step (start_moves active) start schedule

end DataAccess
