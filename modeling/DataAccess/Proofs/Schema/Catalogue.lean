import DataAccess.Proofs.Activity
import DataAccess.Proofs.Schema.Lookup
import DataAccess.Proofs.Session.Frame
import DataAccess.Proofs.Session.Guard

/-!
The tables of a catalogue, which are looked up and forgotten by whoever holds its gate. A table is
looked up only while the catalogue does not have it, and put there only with the columns that the
link has told just before.
-/
namespace DataAccess

variable {σ α : Type} [Link σ]

omit [Link σ] in
theorem World.catalogue_putCatalogue (w : World σ) (c d : Nat) (tables : Schema) :
    (w.putCatalogue c tables).catalogue d = if c = d then tables else w.catalogue d := by
  simp only [catalogue, putCatalogue, Assoc.get?_put]
  split_ifs <;> rfl

namespace Schema
open Session (turn)

/-- What one step makes of a catalogue, by whom this was seen before. -/
inductive Revised (past : List (Sight Schema Lookup)) : Schema → Schema → Prop
  | same (s : Schema) : Revised past s s
  | loaded {s : Schema} {table : String} (rows : List Record) :
    Assoc.get? s table = none → past.getLast? = some (.seen (told (table, rows))) →
      Revised past s (Assoc.put s table (.ofRows rows))
  | forgotten (s : Schema) (table : String) : Revised past s (Assoc.erase s table)

/-- A catalogue and its gate, where sessions are on databases that are filed as given. -/
def guard (k : Nat) (filed : Nat → Nat) : Guard (World σ) Schema Lookup where
  gate := .catalogue k
  view w := w.catalogue k
  base w := ∀ n, (w.session n).database.catalogue = filed n
  shown := World.lookups
  law known past w v :=
    (∀ s ∈ known, ∀ l ∈ w.lookups v, ∃ table, l.params = columnsParams table ∧
      Assoc.get? s table = none) ∧ Revised past (w.catalogue k) (v.catalogue k)
  shown_self := World.lookups_self
  law_self _ _ w := ⟨by simp [World.lookups_self], .same _⟩

variable {k n : Nat} {filed : Nat → Nat} {known : Option Schema}
  {past : List (Sight Schema Lookup)}

section steps
variable {Q : Option Schema → List (Sight Schema Lookup) → Except Error α → Prop}

theorem secures_change {f : World σ → Except Error α × World σ}
    (database : ∀ (w : World σ) m, ((f w).2.session m).database = (w.session m).database)
    (h : ∀ w : World σ, (∀ m, (w.session m).database.catalogue = filed m) →
      (∀ s ∈ known, w.catalogue k = s) →
        (∀ s ∈ known, ∀ l ∈ w.lookups (f w).2, ∃ table, l.params = columnsParams table ∧
          Assoc.get? s table = none) ∧
        Revised past (w.catalogue k) ((f w).2.catalogue k) ∧
        (known = none → (f w).2.catalogue k = w.catalogue k) ∧
        Q (known.map fun _ => (f w).2.catalogue k) (past ++ (w.lookups (f w).2).map .seen)
          (f w).1) :
    (guard k filed).Secures known past (Act.step f).run Q := by
  intro w base view
  obtain ⟨allowed, revised, unseen, hq⟩ := h w base view
  refine ⟨fun m => ?_, ⟨allowed, revised⟩, unseen, hq⟩
  rw [database w m]
  exact base m

/-- A step that asks the link for nothing. -/
theorem secures_step {f : World σ → Except Error α × World σ}
    (aside : ∀ w : World σ, w.Aside (f w).2)
    (h : ∀ w : World σ, (∀ m, (w.session m).database.catalogue = filed m) →
      (∀ s ∈ known, w.catalogue k = s) → Revised past (w.catalogue k) ((f w).2.catalogue k) ∧
        (known = none → (f w).2.catalogue k = w.catalogue k) ∧
        Q (known.map fun _ => (f w).2.catalogue k) past (f w).1) :
    (guard k filed).Secures known past (Act.step f).run Q := by
  refine secures_change (fun w => (aside w).database) fun w base view => ?_
  rw [World.lookups_of_asks (aside w).asks, List.map_nil, List.append_nil]
  exact ⟨by simp, h w base view⟩

/-- A step that leaves the catalogue alone. -/
theorem secures_aside {f : World σ → Except Error α × World σ}
    (aside : ∀ w : World σ, w.Aside (f w).2) (same : ∀ w, (f w).2.catalogue k = w.catalogue k)
    (h : ∀ w : World σ, (∀ m, (w.session m).database.catalogue = filed m) →
      (∀ s ∈ known, w.catalogue k = s) → Q known past (f w).1) :
    (guard k filed).Secures known past (Act.step f).run Q := by
  refine secures_step aside fun w base view => ?_
  rw [same w, known_of_view view]
  exact ⟨.same _, fun _ => rfl, h w base view⟩

theorem secures_read {f : World σ → α}
    (h : ∀ w : World σ, (∀ m, (w.session m).database.catalogue = filed m) →
      (∀ s ∈ known, w.catalogue k = s) → Q known past (.ok (f w))) :
    (guard k filed).Secures known past (Act.read f).run Q :=
  secures_aside (fun w => .refl w) (fun _ => rfl) h

theorem secures_announce {Q : Option Schema → List (Sight Schema Lookup) → Except Error Unit → Prop}
    (e : Event) (h : Q known past (.ok ())) :
    (guard k filed).Secures known past (Session.announce (σ := σ) n e).run Q :=
  secures_aside (fun w => w.publish_aside n e) (fun _ => rfl) fun _ _ _ => h

/-- The columns of a missing table are put into the catalogue by whom they were told. -/
theorem secures_put {s : Schema} {table : String} {rows : List Record}
    {Q : Option Schema → List (Sight Schema Lookup) → Except Error Unit → Prop}
    (missing : Assoc.get? s table = none)
    (told : past.getLast? = some (.seen (told (table, rows))))
    (h : Q (some (Assoc.put s table (.ofRows rows))) past (.ok ())) :
    (guard k filed).Secures (some s) past (Act.modify fun w : World σ =>
      w.putCatalogue k (Assoc.put (w.catalogue k) table (.ofRows rows))).run Q := by
  refine secures_step (fun w => w.putCatalogue_aside k _) fun w _ view => ?_
  obtain rfl := view s rfl
  simp only [World.catalogue_putCatalogue, if_true]
  exact ⟨.loaded rows missing told, nofun, h⟩

theorem secures_turn {t : Scope σ → Except Error α × Scope σ} {o : Operation}
    (ht : ∀ s, (t s).2 = o.on s)
    (allowed : ∀ s ∈ known, ∀ w : World σ, ∀ l ∈ w.lookups (w.perform n o),
      ∃ table, l.params = columnsParams table ∧ Assoc.get? s table = none)
    (h : ∀ w : World σ, Q known (past ++ (w.lookups (w.perform n o)).map .seen) (t (w.scope n)).1) :
    (guard k filed).Secures known past (turn n t).run Q := by
  refine Guard.secures_holding_ne (by simp [guard]) (secures_change ?_ fun w base view => ?_)
  · intro w m
    rw [World.turn_eq_perform ht]
    exact w.perform_database n o m
  · have same : (w.perform n o).catalogue k = w.catalogue k := rfl
    rw [World.turn_eq_perform ht, same, known_of_view view]
    exact ⟨fun s hs => allowed s hs w, .same _, fun _ => rfl, h w⟩

theorem quiet_turn {t : Scope σ → Except Error α × Scope σ} {o : Operation}
    (ht : ∀ s, (t s).2 = o.on s)
    (quiet : ∀ w : World σ, w.wire.Asks (w.perform n o).wire []) :
    (guard k filed).Quiet (turn n t).run := by
  intro known past
  have silent (w : World σ) : w.lookups (w.perform n o) = [] := World.lookups_of_asks (quiet w)
  exact secures_turn ht (by simp [silent]) (by simp [silent])

/-- A task between an opening and a closing step of which nothing is seen. -/
theorem secures_between {opening : Act (World σ) Unit}
    {closing : Except Error α → Act (World σ) Unit} {task : Act (World σ) α}
    (opens : (guard k filed).Quiet opening.run)
    (closes : ∀ o, (guard k filed).Quiet (closing o).run) (refused : ∀ e, Q known past (.error e))
    (h : (guard k filed).Secures known past task.run fun known past o =>
      ∀ closed, Q known past (settle o closed)) :
    (guard k filed).Secures known past (do
      opening
      let o ← task.outcome
      let closed ← (closing o).outcome
      .ofExcept (settle o closed) : Act (World σ) α).run Q := by
  refine Guard.Secures.act_bind (opens.secures fun o => ?_)
  cases o with
  | error e => exact refused e
  | ok _ =>
    refine Guard.Secures.outcome_bind (h.mono fun known past o hq => ?_)
    exact Guard.Secures.outcome_bind ((closes o).secures hq)

end steps

inductive Answered (table : String) (value : List Record → α) :
    List Lookup → Except Error α → Prop
  | found (rows : List Record) :
    Answered table value [told (table, rows)] (.ok (value rows))
  | failed {tries : List Lookup} (e : Error) : tries.length ≤ 1 →
    (∀ l ∈ tries, l.params = columnsParams table) → Answered table value tries (.error e)

theorem Answered.settle {table : String} {value : List Record → α} {tries : List Lookup}
    {o : Except Error α} (h : Answered table value tries o) (closed : Except Error Unit) :
    Answered table value tries (settle o closed) := by
  cases h with
  | found rows =>
    cases closed with
    | ok _ => exact .found rows
    | error e => exact .failed e (by simp) (by simp [told])
  | failed e few only => exact .failed e few only

/-- All that was seen is a look-up of the table, whose outcome is known. -/
def Tried (table : String) (value : List Record → α) (s : Schema)
    (past : List (Sight Schema Lookup)) (known : Option Schema)
    (now : List (Sight Schema Lookup)) (o : Except Error α) : Prop :=
  known = some s ∧ ∃ tries, now = past ++ tries.map .seen ∧ Answered table value tries o

theorem Tried.refused {table : String} {value : List Record → α} {s : Schema} (e : Error) :
    Tried table value s past (some s) past (.error e) :=
  ⟨rfl, [], by simp, .failed e (by simp) (by simp)⟩

section lookup
variable {s : Schema} {table : String}

theorem secures_statement (missing : Assoc.get? s table = none) :
    (guard k filed).Secures (some s) past
      (Session.statement (σ := σ) n columnsSql (columnsParams table)).run
      (Tried table id s past) := by
  refine secures_turn (o := .statement columnsSql (columnsParams table)) (fun _ => rfl)
    (fun t ht w l hl => ⟨table, ?_, ?_⟩) fun w => ⟨rfl, ?_⟩
  · rcases w.lookups_statement n (columnsParams table) with ⟨-, hw⟩ | hw <;> rw [hw] at hl
    · contradiction
    · rw [List.mem_singleton.mp hl]
  · exact Option.some.inj ht ▸ missing
  · refine ⟨_, rfl, ?_⟩
    rcases w.lookups_statement n (columnsParams table) with ⟨⟨e, he⟩, hw⟩ | hw <;> rw [hw]
    · rw [he]
      exact .failed e (by simp) (by simp)
    · rcases ((w.scope n).statement columnsSql (columnsParams table)).1 with e | rows
      · exact .failed e (by simp) (by simp)
      · exact .found rows

theorem secures_framed (missing : Assoc.get? s table = none) (transact : Bool) :
    (guard k filed).Secures (some s) past
      (Session.framed (σ := σ) n transact columnsSql (columnsParams table)).run
      (Tried table id s past) := by
  have sent : (guard k filed).Secures (some s) past
      (Session.statement (σ := σ) n columnsSql (columnsParams table)).run fun known now o =>
        ∀ closed, Tried table id s past known now (settle o closed) :=
    (secures_statement missing).mono fun _ _ _ ⟨hk, tries, hp, ha⟩ closed =>
      ⟨hk, tries, hp, ha.settle closed⟩
  cases transact with
  | true =>
    exact secures_between
      (quiet_turn (o := .begin) (fun _ => rfl) fun w => Scope.asks_begin (w.scope n))
      (fun o => quiet_turn (o := .finish (failure? o)) (fun _ => rfl)
        fun w => Scope.asks_finish (w.scope n) _) .refused sent
  | false =>
    exact secures_between
      (quiet_turn (o := .retain) (fun _ => rfl) fun w => Scope.asks_retain (w.scope n))
      (fun _ => quiet_turn (o := .release) (fun _ => rfl)
        fun w => Scope.asks_release (w.scope n)) .refused sent

theorem secures_load (missing : Assoc.get? s table = none) :
    (guard k filed).Secures (some s) past (load (σ := σ) n table).run
      (Tried table TableSchema.ofRows s past) := by
  have sent : (guard k filed).Secures (some s) past
      (Session.execWith (σ := σ) n columnsSql (columnsParams table) { raw := true }).run
      (Tried table Output.rows s past) := by
    refine Guard.Secures.act_bind (secures_read fun w _ _ => ?_)
    refine Guard.Secures.act_bind (secures_announce _ ?_)
    refine Guard.Secures.outcome_bind ((secures_framed missing _).mono ?_)
    rintro _ _ o ⟨rfl, tries, rfl, answered⟩
    refine Guard.Secures.act_bind (secures_announce _ ?_)
    cases answered with
    | found rows => exact ⟨rfl, _, rfl, .found rows⟩
    | failed e few only => exact ⟨rfl, _, rfl, .failed e few only⟩
  refine Guard.Secures.act_bind (sent.mono ?_)
  rintro _ _ o ⟨rfl, tries, rfl, answered⟩
  cases answered with
  | found rows => exact ⟨rfl, _, rfl, .found rows⟩
  | failed e few only => exact ⟨rfl, _, rfl, .failed e few only⟩

end lookup

theorem secures_ensureTables (tables : List String) (s : Schema) :
    (guard k filed).Secures (some s) past (ensureTables (σ := σ) n k tables).run
      fun known now o => ∃ t tries, known = some t ∧ now = past ++ tries.map .seen ∧
        Ensured tables s tries t o := by
  induction tables generalizing s past with
  | nil => exact ⟨s, [], rfl, by simp, .all (.nil s)⟩
  | cons table rest ih =>
    refine Guard.Secures.act_bind (Guard.Secures.act_bind (secures_read fun w _ view => ?_))
    obtain rfl := view s rfl
    dsimp only
    split_ifs with known
    · refine (ih _).mono ?_
      rintro _ _ o ⟨t, tries, rfl, rfl, ensured⟩
      exact ⟨t, tries, rfl, rfl, ensured.found known⟩
    · have missing := Option.not_isSome_iff_eq_none.mp known
      refine Guard.Secures.act_bind ((secures_load missing).mono ?_)
      rintro _ _ o ⟨rfl, tries, rfl, answered⟩
      cases answered with
      | failed e few only =>
        exact ⟨_, tries, rfl, rfl, .failed e rfl (.nil _) missing few only⟩
      | found rows =>
        refine secures_put missing (by simp) ((ih _).mono ?_)
        rintro _ _ o ⟨t, tries, rfl, rfl, ensured⟩
        exact ⟨t, _, rfl, by simp, ensured.loaded missing⟩

/-- What is seen of somebody who has tables ensured: he enters, looks up what is missing, and
leaves. -/
theorem secures_ensure (hn : filed n = k) (tables : List String) :
    (guard k filed).Secures none past (ensure (σ := σ) n tables).run fun known now outcome =>
      known = none ∧ ∃ s tries t, now = past ++ .entered s :: tries.map .seen ++ [.left t] ∧
        Ensured tables s tries t (outcome.map fun _ => ()) ∧
        ∀ snapshot, outcome = .ok snapshot → snapshot = t.restricted tables := by
  refine Guard.Secures.act_bind (secures_read fun w base _ => ?_)
  dsimp only
  rw [base n, hn]
  refine Guard.secures_holding fun s => Guard.Secures.act_bind ?_
  refine (secures_ensureTables tables s).mono ?_
  rintro _ _ o ⟨t, tries, rfl, rfl, ensured⟩
  cases o with
  | error e => exact ⟨t, rfl, rfl, s, tries, t, by simp, ensured, nofun⟩
  | ok _ =>
    refine secures_read fun v _ view => ?_
    obtain rfl := view t rfl
    exact ⟨_, rfl, rfl, s, tries, _, by simp, ensured, fun _ h => (Except.ok.inj h).symm⟩

variable {commits : Prop}

theorem guarded_statements {admits : String → Prop} :
    Session.Statements admits fun _ (r : Routine (World σ) _) => (guard k filed).Keeps r where
  toComposes := Guard.composes _
  of_turn n t o _ ht past := secures_turn ht (by simp) fun _ => rfl
  read f past := secures_read fun _ _ _ => rfl
  announce n e _ past := secures_announce e rfl

/-- Whoever is at another catalogue does not touch this one. -/
theorem guarded_ensureTables {c : Nat} (hc : c ≠ k) (tables : List String) :
    (guard k filed).Keeps (ensureTables (σ := σ) n c tables).run := by
  have parts : Session.Statements (fun _ => True) fun _ (r : Routine (World σ) _) =>
      (guard k filed).Keeps r := guarded_statements
  refine parts.ensureTables trivial (fun table columns past => ?_) n tables
  exact secures_aside (fun w => w.putCatalogue_aside c _)
    (fun w => by rw [World.catalogue_putCatalogue, if_neg hc]) fun _ _ _ => rfl

theorem guarded_ensure (tables : List String) :
    (guard k filed).Keeps (ensure (σ := σ) n tables).run := by
  intro past
  by_cases hn : filed n = k
  · exact (secures_ensure hn tables).mono fun _ _ _ h => h.1
  refine Guard.Secures.act_bind (secures_read fun w base _ => ?_)
  dsimp only
  rw [base n]
  refine Guard.secures_holding_ne (by simpa [guard] using hn) (Guard.Secures.act_bind ?_)
  refine (guarded_ensureTables hn tables past).mono ?_
  rintro _ _ o rfl
  cases o with
  | error e => rfl
  | ok _ => exact secures_read fun _ _ _ => rfl

theorem guarded_forget (table : String) :
    (guard k filed).Keeps (forget (σ := σ) n table).run := by
  intro past
  refine Guard.Secures.act_bind (secures_read fun w base _ => ?_)
  dsimp only
  rw [base n]
  by_cases hn : filed n = k
  · rw [hn]
    refine Guard.secures_holding fun s => secures_step (fun w => w.putCatalogue_aside k _) ?_
    intro v _ view
    obtain rfl := view s rfl
    simp only [World.catalogue_putCatalogue, if_true]
    exact ⟨.forgotten _ _, nofun, _, rfl, rfl⟩
  · refine Guard.secures_holding_ne (by simpa [guard] using hn) ?_
    exact secures_aside (fun w => w.putCatalogue_aside _ _)
      (fun w => by rw [World.catalogue_putCatalogue, if_neg hn]) fun _ _ _ => rfl

/-- Whatever users do keeps to the law of every catalogue. -/
theorem guarded :
    Activities commits fun _ (r : Routine (World σ) _) => (guard k filed).Keeps r where
  toStatements := guarded_statements
  ensure n tables := guarded_ensure tables
  forget n table := guarded_forget table
  lookup n entity ids past :=
    secures_aside (fun w => World.Unseen.toAside (w.unseen_putSession rfl rfl rfl rfl rfl rfl))
      (fun _ => rfl) fun _ _ _ => rfl
  change n entity f past := by
    refine secures_aside (fun w => ?_) (fun w => ?_) fun _ _ _ => rfl
    · dsimp only
      split
      · exact World.Unseen.toAside (w.unseen_putSession rfl rfl rfl rfl rfl rfl)
      · exact .refl w
    · dsimp only
      split <;> rfl
  exclusive n entity task h past := Guard.secures_holding_ne (by simp [guard]) (h past)

end Schema
end DataAccess
