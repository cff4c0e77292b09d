import DataAccess.Proofs.Sql.Faults
import DataAccess.Proofs.Sql.Numbering

/-!
The columns of an insert, its values and the parameters stand in three rows. A null and a raw text
take no parameter, so that the rows are of different length. Every value still comes to its column.
-/
namespace DataAccess
namespace Sql

section
variable {α : Type} {part : α → Sql} {takes : α → Bool} {value : α → Json}

/-- Parts in a row that take one parameter each or none. -/
theorem params_joined (separator : String)
    (h : ∀ a, (part a).params = if takes a then [value a] else []) (as : List α) :
    (joined separator (as.map part)).params = (as.filter takes).map value := by
  induction as with
  | nil => rfl
  | cons a as ih =>
    have first : (part a).params ++ (as.filter takes).map value =
        ((a :: as).filter takes).map value := by
      rw [h, List.filter_cons]
      split_ifs <;> rfl
    rw [← first, ← ih]
    cases as with
    | nil => exact (List.append_nil _).symm
    | cons b as => simp [joined, text, params_append]

/-- The number of a part counts the parts before it that take a parameter. -/
theorem textFrom_joined (separator : String)
    (h : ∀ a, (part a).params = if takes a then [value a] else []) (as : List α) (n : Nat) :
    textFrom n (joined separator (as.map part)) =
      separator.intercalate
        (as.mapIdx fun i a => textFrom (n + (as.take i).countP takes) (part a)) := by
  induction as generalizing n with
  | nil => rfl
  | cons a as ih =>
    cases as with
    | nil => simp [joined]
    | cons b as =>
      have first : (part a).params.length = if takes a then 1 else 0 := by
        rw [h]
        split_ifs <;> rfl
      -- the parts behind the first one start at the number that it leaves free
      have next (i : Nat) : n + (part a).params.length + ((b :: as).take i).countP takes =
          n + ((a :: b :: as).take (i + 1)).countP takes := by
        rw [first, List.take_succ_cons, List.countP_cons]
        omega
      have rest := ih (n + (part a).params.length)
      simp only [next, List.mapIdx_cons] at rest
      simp only [List.mapIdx_cons]
      rw [String.intercalate_cons_cons, ← rest]
      simp [joined, text, textFrom_append, String.append_assoc]

/-- Before the parameter of a part there is one for each part before it that takes one. -/
theorem getElem?_taken {as : List α} {i : Nat} {a : α} (ha : as[i]? = some a)
    (h : takes a = true) :
    ((as.filter takes).map value)[(as.take i).countP takes]? = some (value a) := by
  induction as generalizing i with
  | nil => simp at ha
  | cons b as ih =>
    cases i with
    | zero =>
      cases Option.some.inj ha
      simp [h]
    | succ i =>
      have rest := ih ha
      by_cases hb : takes b = true
      · simpa [hb] using rest
      · simpa [hb] using rest

end
end Sql

def plainCastText (v : Json) (t : ColumnType) : String :=
  match v with
  | .string _ => if t.isTextual then "" else "::" ++ t.name
  | _ => ""

def castText (v : Json) : Slot → String
  | .jsonPath => "::jsonb"
  | .textPath | .unknown => ""
  | .typed t =>
    if t.isJson then "::" ++ t.name else
    match t.isArray, v with
    | true, .array _ => "::" ++ t.name
    | _, v => plainCastText v t

/-- A value is a placeholder for the form that its column wants, and perhaps a cast. -/
theorem bind_eq (v : Json) (slot : Slot) :
    ∃ cast : Sql, bind v slot = .hole (coerced v slot) :: cast ∧ cast.params = [] ∧
      ∀ n, cast.textFrom n = castText v slot := by
  have bare (n : Nat) : Sql.textFrom n [] = "" := rfl
  have single (s : String) (n : Nat) : Sql.textFrom n [.text s] = s := by simp
  cases slot with
  | unknown => exact ⟨[], rfl, rfl, bare⟩
  | jsonPath => exact ⟨_, rfl, rfl, single _⟩
  | textPath => exact ⟨[], rfl, rfl, bare⟩
  | typed t =>
    by_cases json : t.isJson
    · simp only [bind, bindTyped, coerced, castText, if_pos json]
      cases v <;> exact ⟨_, rfl, rfl, single _⟩
    -- only an array for an array column is bound as the text of one
    have other : ∃ cast : Sql,
        (if t.isTextual then [.hole (textual v)] else bindPlain v t) =
          .hole (if t.isTextual then textual v else v) :: cast ∧ cast.params = [] ∧
        ∀ n, cast.textFrom n = plainCastText v t := by
      unfold plainCastText
      split_ifs
      · cases v <;> exact ⟨[], rfl, rfl, bare⟩
      · cases v with
        | string s => exact ⟨_, rfl, rfl, single _⟩
        | null | bool | number | array | object => exact ⟨[], rfl, rfl, bare⟩
    simp only [bind, bindTyped, coerced, castText, if_neg json]
    cases t.isArray with
    | false => cases v <;> exact other
    | true =>
      cases v with
      | array items => exact ⟨_, rfl, rfl, single _⟩
      | null | bool | number | string | object => exact other

namespace Record

/-- The number of the value at `i` if the first number is `n` and only some values take one. -/
def numberAt (takes : Json → Bool) (values : Record) (n i : Nat) : Nat :=
  n + (values.take i).countP fun e => takes e.2

def nextNumber (takes : Json → Bool) (values : Record) (n : Nat) : Nat :=
  n + values.countP fun e => takes e.2

def texts (takes : Json → Bool) (text : String → Json → Nat → String) (values : Record) (n : Nat) :
    List String :=
  values.mapIdx fun i e => text e.1 e.2 (values.numberAt takes n i)

def parameters (takes : Json → Bool) (slot : String → Slot) (values : Record) : List Json :=
  (values.filter fun e => takes e.2).map fun e => coerced e.2 (slot e.1)

/-- The parameter with the number of a value is this value, as its column wants it. -/
def Placed (takes : Json → Bool) (slot : String → Slot) (values : Record) (n : Nat)
    (params : List Json) : Prop :=
  ∀ i key v, values[i]? = some (key, v) → takes v = true →
    params[values.numberAt takes n i - 1]? = some (coerced v (slot key))

section
variable {takes : Json → Bool} {slot : String → Slot}

theorem length_parameters (values : Record) (n : Nat) :
    n + (values.parameters takes slot).length = values.nextNumber takes n := by
  rw [parameters, List.length_map, ← List.countP_eq_length_filter, nextNumber]

theorem placed_parameters (before after : List Json) (values : Record) :
    values.Placed takes slot (1 + before.length)
      (before ++ (values.parameters takes slot ++ after)) := by
  intro i key v found taken
  have own : ((values.filter fun e => takes e.2).map fun e => coerced e.2 (slot e.1))[
      (values.take i).countP fun e => takes e.2]? = some (coerced v (slot key)) :=
    Sql.getElem?_taken found taken
  obtain ⟨within, -⟩ := List.getElem?_eq_some_iff.mp own
  have position : values.numberAt takes (1 + before.length) i - 1 =
      before.length + (values.take i).countP fun e => takes e.2 := by
    rw [numberAt]
    omega
  rw [position, List.getElem?_append_right (Nat.le_add_right _ _), Nat.add_sub_cancel_left,
    parameters, List.getElem?_append_left within]
  exact own

variable {part : String × Json → Sql} {text : String → Json → Nat → String}

theorem textFrom_joined
    (params : ∀ e, (part e).params = if takes e.2 then [coerced e.2 (slot e.1)] else [])
    (texts : ∀ e k, (part e).textFrom k = text e.1 e.2 k) (values : Record) (n : Nat) :
    Sql.textFrom n (Sql.joined ", " (values.map part)) =
      ", ".intercalate (values.texts takes text n) := by
  rw [Sql.textFrom_joined ", " params]
  simp only [texts]
  rfl

end
end Record

def takesValue : Json → Bool
  | .null => false
  | _ => true

def takesSetting : Json → Bool
  | .null => false
  | .string s => s.toList.head? ≠ some ':'
  | _ => true

namespace Dialect
variable (d : Dialect) (table : String)

def valueText (key : String) (v : Json) (k : Nat) : String :=
  match v with
  | .null => "NULL"
  | v => "$" ++ toString k ++ castText v (d.slot table key)

/-- A column and its new value, where text behind a colon stands for itself. -/
def settingText (key : String) (v : Json) (k : Nat) : String :=
  d.naming.storageName key ++ " = " ++
    match v with
    | .string s =>
      match s.toList with
      | ':' :: raw => String.ofList raw
      | _ => d.valueText table key v k
    | v => d.valueText table key v k

theorem params_assigned (key : String) (v : Json) :
    (d.assigned table key v).params =
      if takesValue v then [coerced v (d.slot table key)] else [] := by
  obtain ⟨cast, bound, none, -⟩ := bind_eq v (d.slot table key)
  unfold assigned
  rw [bound]
  cases v with
  | null => rfl
  | bool | number | string | array | object => exact congrArg _ none

theorem textFrom_assigned (key : String) (v : Json) (k : Nat) :
    (d.assigned table key v).textFrom k = d.valueText table key v k := by
  obtain ⟨cast, bound, -, text⟩ := bind_eq v (d.slot table key)
  have shown : (bind v (d.slot table key)).textFrom k =
      "$" ++ toString k ++ castText v (d.slot table key) := by
    rw [bound, Sql.textFrom_hole, text]
  unfold assigned
  cases v with
  | null => rfl
  | bool | number | string | array | object => exact shown

/-- An assignment sets a column to raw text, or to a value as an insert would. -/
theorem assignment_cases (key : String) (v : Json) :
    let column := d.naming.storageName key ++ " = "
    (takesSetting v = false ∧ ∃ raw, d.assignment table key v = [.text column, .text raw] ∧
      ∀ k, d.settingText table key v k = column ++ raw) ∨
    (takesSetting v = takesValue v ∧
      d.assignment table key v = .text column :: d.assigned table key v ∧
      ∀ k, d.settingText table key v k = column ++ d.valueText table key v k) := by
  intro column
  cases v with
  | string s =>
    simp only [assignment, settingText, rawText?, takesSetting]
    cases marked : s.toList with
    | nil => exact .inr ⟨rfl, rfl, fun _ => rfl⟩
    | cons c raw =>
      by_cases colon : c = ':'
      · subst colon
        exact .inl ⟨rfl, String.ofList raw, rfl, fun _ => rfl⟩
      · refine .inr ⟨by simp [takesValue, colon], ?_, fun k => ?_⟩
        · rw [Text.unmarked, if_neg colon]
          rfl
        · split
          next other => exact absurd (List.cons.inj other).1 colon
          next => rfl
  | null | bool | number | array | object => exact .inr ⟨rfl, rfl, fun _ => rfl⟩

theorem params_assignment (key : String) (v : Json) :
    (d.assignment table key v).params =
      if takesSetting v then [coerced v (d.slot table key)] else [] := by
  rcases d.assignment_cases table key v with ⟨taken, raw, written, -⟩ | ⟨taken, written, -⟩
  · rw [taken, written]
    rfl
  · rw [taken, written]
    exact d.params_assigned table key v

theorem textFrom_assignment (key : String) (v : Json) (k : Nat) :
    (d.assignment table key v).textFrom k = d.settingText table key v k := by
  rcases d.assignment_cases table key v with ⟨-, raw, written, text⟩ | ⟨-, written, text⟩
  · rw [written, text]
    simp
  · rw [written, text, Sql.textFrom_text, d.textFrom_assigned]

theorem params_assignments (values : Record) :
    (d.assignments table values).params = values.parameters takesSetting (d.slot table) :=
  Sql.params_joined ", " (fun e => d.params_assignment table e.1 e.2) values

theorem textFrom_assignments (values : Record) (n : Nat) :
    (d.assignments table values).textFrom n =
      ", ".intercalate (values.texts takesSetting (d.settingText table) n) :=
  Record.textFrom_joined (fun e => d.params_assignment table e.1 e.2)
    (fun e => d.textFrom_assignment table e.1 e.2) values n

theorem params_inserted {spec : Spec} (given : spec.values ≠ []) :
    (d.inserted spec).params = spec.values.parameters takesValue (d.slot spec.table) := by
  unfold inserted
  dsimp only
  rw [if_neg (by simpa using given)]
  simp only [List.cons_append, Sql.params_text, Sql.params_append, Sql.params_listed,
    List.nil_append, Sql.params_nil, List.append_nil]
  exact Sql.params_joined ", " (fun e => d.params_assigned spec.table e.1 e.2) spec.values

theorem textFrom_inserted {spec : Spec} (given : spec.values ≠ []) :
    (d.inserted spec).textFrom 1 = "INSERT INTO " ++ d.naming.storageName spec.table ++ " (" ++
      ", ".intercalate (spec.values.map fun e => d.naming.storageName e.1) ++ ") VALUES (" ++
      ", ".intercalate (spec.values.texts takesValue (d.valueText spec.table) 1) ++ ")" := by
  have expressions := Record.textFrom_joined (fun e => d.params_assigned spec.table e.1 e.2)
    (fun e => d.textFrom_assigned spec.table e.1 e.2) spec.values 1
  unfold inserted
  dsimp only
  rw [if_neg (by simpa using given)]
  simp only [List.cons_append, Sql.textFrom_text, Sql.textFrom_append, Sql.textFrom_listed,
    Sql.textFrom_nil, Sql.params_listed, List.length_nil, Nat.add_zero, expressions,
    String.append_assoc, String.append_empty]

theorem params_returning (spec : Spec) : (d.returning spec).params = [] :=
  Sql.params_listed _

theorem textFrom_returning (spec : Spec) (n : Nat) :
    (d.returning spec).textFrom n = " RETURNING " ++ ", ".intercalate (d.keys spec.select) := by
  rw [returning, Sql.textFrom_text, Sql.textFrom_listed]

end Dialect

def Upsert.settings (u : Upsert) : Record :=
  match u.action with
  | .update (.object values) => values
  | _ => []

def Spec.settings (s : Spec) : Record := s.upsert.elim [] Upsert.settings

namespace Dialect
variable (d : Dialect) (table : String)

def conflictText (n : Nat) (u : Upsert) : String :=
  " ON CONFLICT" ++
    (if u.columns = [] then ""
    else " (" ++ ", ".intercalate (u.columns.map d.naming.storageName) ++ ")") ++
    match u.action with
    | .nothing => " DO NOTHING"
    | .update _ => " DO UPDATE SET " ++
      ", ".intercalate (u.settings.texts takesSetting (d.settingText table) n)
    | .merge columns => " DO UPDATE SET " ++ ", ".intercalate (columns.map d.merged)

theorem params_conflictTarget (u : Upsert) : (d.conflictTarget u).params = [] := by
  unfold conflictTarget
  split_ifs
  · rfl
  · simp [Sql.params_append, Sql.params_listed]

theorem textFrom_conflictTarget (u : Upsert) (n : Nat) :
    (d.conflictTarget u).textFrom n = if u.columns = [] then ""
      else " (" ++ ", ".intercalate (u.columns.map d.naming.storageName) ++ ")" := by
  unfold conflictTarget
  simp only [List.isEmpty_iff]
  split_ifs
  · rfl
  · simp [Sql.textFrom_append, Sql.textFrom_listed, String.append_assoc]

theorem params_onConflict {u : Upsert} {s : Sql} (h : d.onConflict table u = .ok s) :
    s.params = u.settings.parameters takesSetting (d.slot table) := by
  have target := d.params_conflictTarget u
  rcases onConflict_ok h with ⟨act, rfl⟩ | ⟨_, rfl, ⟨values, act, rfl⟩ | ⟨columns, act, rfl⟩⟩
  · simp [Sql.params_append, target, Upsert.settings, act, Record.parameters]
  · simp [Sql.params_append, target, Upsert.settings, act, params_assignments]
  · simp [Sql.params_append, target, Upsert.settings, act, Record.parameters, Sql.params_listed]

theorem textFrom_onConflict {u : Upsert} {s : Sql} (h : d.onConflict table u = .ok s) (n : Nat) :
    s.textFrom n = d.conflictText table n u := by
  have target := d.textFrom_conflictTarget u
  have none := d.params_conflictTarget u
  unfold conflictText
  rw [← target n]
  rcases onConflict_ok h with ⟨act, rfl⟩ | ⟨_, rfl, ⟨values, act, rfl⟩ | ⟨columns, act, rfl⟩⟩
  · simp [Sql.textFrom_append, act, String.append_assoc]
  · simp [Sql.textFrom_append, act, none, textFrom_assignments, Upsert.settings,
      String.append_assoc]
  · simp [Sql.textFrom_append, act, Sql.textFrom_listed, String.append_assoc]

/-- A compiled insert lists a column and an expression for each value, and each value is found under
the number in its expression. -/
structure Inserts (spec : Spec) (c : Compiled) : Prop where
  sql : c.sql = "INSERT INTO " ++ d.naming.storageName spec.table ++ " (" ++
    ", ".intercalate (spec.values.map fun e => d.naming.storageName e.1) ++ ") VALUES (" ++
    ", ".intercalate (spec.values.texts takesValue (d.valueText spec.table) 1) ++ ")" ++
    spec.upsert.elim "" (d.conflictText spec.table (spec.values.nextNumber takesValue 1)) ++
    " RETURNING " ++ ", ".intercalate (d.keys spec.select)
  params : c.params = spec.values.parameters takesValue (d.slot spec.table) ++
    spec.settings.parameters takesSetting (d.slot spec.table)
  values : spec.values.Placed takesValue (d.slot spec.table) 1 c.params
  settings : spec.settings.Placed takesSetting (d.slot spec.table)
    (spec.values.nextNumber takesValue 1) c.params

/-- A compiled update assigns each value in the same way, and its filter has the next numbers. -/
structure Updates (spec : Spec) (filter : Sql) (c : Compiled) : Prop where
  sql : c.sql = "UPDATE " ++ d.naming.storageName spec.table ++ " SET " ++
    ", ".intercalate (spec.values.texts takesSetting (d.settingText spec.table) 1) ++
    filter.textFrom (spec.values.nextNumber takesSetting 1) ++
    " RETURNING " ++ ", ".intercalate (d.keys spec.select)
  params : c.params =
    spec.values.parameters takesSetting (d.slot spec.table) ++ filter.params
  values : spec.values.Placed takesSetting (d.slot spec.table) 1 c.params
  numbered : (∀ name ∈ spec.names ++ d.primaryKey :: d.schema.typeNames, '$' ∉ name.toList) →
    Text.placeholders (filter.textFrom (spec.values.nextNumber takesSetting 1)).toList =
      (List.range' (spec.values.nextNumber takesSetting 1) filter.params.length).map
        (Nat.toDigits 10)

theorem insert_inserts {spec : Spec} {s : Sql} (given : spec.values ≠ [])
    (h : d.insert spec = .ok s) : d.Inserts spec s.compiled := by
  obtain ⟨conflict, rfl, upsert⟩ := insert_ok h
  have next : 1 + (d.inserted spec).params.length = spec.values.nextNumber takesValue 1 := by
    rw [d.params_inserted given, Record.length_parameters]
  have resolved : conflict.params = spec.settings.parameters takesSetting (d.slot spec.table) ∧
      ∀ n, conflict.textFrom n = spec.upsert.elim "" (d.conflictText spec.table n) := by
    rw [Spec.settings]
    rcases upsert with ⟨none, rfl⟩ | ⟨u, some, accepted⟩
    · rw [none]
      exact ⟨rfl, fun _ => rfl⟩
    · rw [some]
      exact ⟨d.params_onConflict spec.table accepted, d.textFrom_onConflict spec.table accepted⟩
  rw [Sql.compiled_eq, Sql.params_append, Sql.params_append, d.params_inserted given, resolved.1,
    d.params_returning, List.append_nil]
  refine ⟨?_, rfl, ?_, ?_⟩
  · rw [Sql.textFrom_append, Sql.textFrom_append, next, d.textFrom_inserted given, resolved.2,
      d.textFrom_returning]
    simp only [String.append_assoc]
  · exact Record.placed_parameters [] _ spec.values
  · rw [← next, d.params_inserted given]
    have placed := @Record.placed_parameters takesSetting (d.slot spec.table)
      (spec.values.parameters takesValue (d.slot spec.table)) [] spec.settings
    rwa [List.append_nil] at placed

theorem update_updates {spec : Spec} {s : Sql} (h : d.update spec = .ok s)
    (command : spec.command = .update) :
    ∃ filter, d.guarded "WHERE" spec.table spec.conditions = .ok filter ∧
      d.Updates spec filter s.compiled := by
  obtain ⟨filter, guarded, rfl⟩ := update_ok h
  have assigned := d.params_assignments spec.table spec.values
  have next : 1 + (d.assignments spec.table spec.values).params.length =
      spec.values.nextNumber takesSetting 1 := by
    rw [assigned, Record.length_parameters]
  rw [Sql.compiled_eq, Sql.params_append, Sql.params_append, Sql.params_text, assigned,
    d.params_returning, List.append_nil]
  refine ⟨filter, guarded, ?_, rfl, ?_, ?_⟩
  · rw [Sql.textFrom_append, Sql.textFrom_append, Sql.textFrom_text, Sql.params_text, next,
      d.textFrom_assignments, d.textFrom_returning]
    simp only [String.append_assoc]
  · exact Record.placed_parameters [] filter.params spec.values
  · intro names
    rw [List.forall_mem_append, List.forall_mem_cons] at names
    obtain ⟨names, key, types⟩ := names
    have sites := (Spec.plain_of_names names).sites
    rw [Spec.sites, command] at sites
    have bound := (binds_guarded ⟨key, types⟩ (by decide) guarded sites.right).1
    rw [Sql.textFrom, String.toList_ofList]
    exact Sql.placeholders_charsFrom bound.neat _

end Dialect

/-- For values to insert or assign, a query without mistakes is written as the values say: the
columns, the expressions and the parameters go together. -/
theorem compile_aligns_values (spec : Spec) (config : Config) (schema : Schema)
    (given : spec.values ≠ []) (sound : spec.faults = []) :
    ∃ c, compile spec config schema = .ok c ∧
      (spec.command = .insert → (config.dialect schema).Inserts spec c) ∧
      (spec.command = .update → ∃ filter,
        (config.dialect schema).guarded "WHERE" spec.table spec.conditions = .ok filter ∧
        (config.dialect schema).Updates spec filter c) := by
  obtain ⟨c, written⟩ := (reports_compile spec config schema).ok_iff.mpr sound
  obtain ⟨s, stated, rfl⟩ := compile_eq_ok.mp written
  unfold Dialect.statement at stated
  refine ⟨_, written, fun command => ?_, fun command => ?_⟩
  · rw [command] at stated
    exact Dialect.insert_inserts _ given stated
  · rw [command] at stated
    exact Dialect.update_updates _ stated command

/-- A null and a raw text stand before other values, in an insert with an upsert and in an update
with a filter. -/
theorem compile_aligns_values_past_null :
    let insertion : Spec := {
      table := "users", command := .insert
      values := [("email", .string "a@b.c"), ("nickName", .null), ("bornOn", .string "2000-01-01")]
      upsert := some ⟨["email"], .update (.object
        [("logins", .string ":users.logins + 1"), ("bornOn", .string "2001-01-01")])⟩ }
    let change : Spec := {
      table := "users", command := .update
      values := [("logins", .string ":logins + 1"), ("nickName", .null), ("email", .string "c@d.e")]
      conditions := [.leaf "id" .eq (.value (.ofInt 7))] }
    let schema : Schema := [("users", [("born_on", ⟨"date"⟩)])]
    let d := ({} : Config).dialect schema
    let inserted : Compiled := {
      sql := "INSERT INTO users (email, nick_name, born_on) VALUES ($1, NULL, $2::date) " ++
        "ON CONFLICT (email) DO UPDATE SET logins = users.logins + 1, born_on = $3::date " ++
        "RETURNING *"
      params := [.string "a@b.c", .string "2000-01-01", .string "2001-01-01"] }
    let changed : Compiled := {
      sql := "UPDATE users SET logins = logins + 1, nick_name = NULL, email = $1 " ++
        "WHERE \"id\" = $2 RETURNING *"
      params := [.string "c@d.e", .ofInt 7] }
    (insertion.values ≠ [] ∧ insertion.faults = [] ∧
      compile insertion {} schema = .ok inserted ∧ d.Inserts insertion inserted) ∧
    change.values ≠ [] ∧ change.faults = [] ∧ compile change {} schema = .ok changed ∧
      ∃ filter, d.guarded "WHERE" change.table change.conditions = .ok filter ∧
        d.Updates change filter changed := by
  intro insertion change schema d inserted changed
  have given : insertion.values ≠ [] ∧ change.values ≠ [] := by simp [insertion, change]
  have sound : insertion.faults = [] ∧ change.faults = [] := ⟨rfl, rfl⟩
  have insertionText : compile insertion {} schema = .ok inserted :=
    eq_ok_of_toOption (by decide +kernel)
  have changeText : compile change {} schema = .ok changed :=
    eq_ok_of_toOption (by decide +kernel)
  obtain ⟨c, written, inserts, -⟩ := compile_aligns_values insertion {} schema given.1 sound.1
  obtain ⟨e, altered, -, updates⟩ := compile_aligns_values change {} schema given.2 sound.2
  cases written.symm.trans insertionText
  cases altered.symm.trans changeText
  exact ⟨⟨given.1, sound.1, written, inserts rfl⟩, given.2, sound.2, altered, updates rfl⟩

end DataAccess
