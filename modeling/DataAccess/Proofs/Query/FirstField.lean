import DataAccess.Proofs.Query.Reading
import DataAccess.Proofs.Sql.Names
import DataAccess.Proofs.Sql.Window
import DataAccess.Proofs.Text.Casing

/-!
Queries for a single field. The row is searched for the key as it was given, which is the name of
a field only where the key names neither a table nor a label.
-/
namespace DataAccess
open Text

/-- A name of the application that its storage form leads back to, without the signs that divide
keys. -/
structure FieldName where
  chars : List Char
  nonempty : chars ≠ []
  undivided : '.' ∉ chars ∧ ':' ∉ chars
  restored : Casing.camel.convertChars (Casing.snake.convertChars chars) = chars

namespace FieldName

def stored (x : FieldName) : List Char := Casing.snake.convertChars x.chars

/-- Canonical words have no signs in them. -/
theorem not_mem_camel (marks : Nat) {ws : List (List Char)}
    (h : ∀ w ∈ ws, Casing.isCanonical w = true) {x : Char} (sign : isSign x = true)
    (other : Casing.isSmall x = false) (mark : '_' ≠ x) :
    x ∉ List.replicate marks '_' ++ Casing.assemble .camel ws := by
  have apart : ∀ w ∈ ws, ∀ c ∈ w, c ≠ x := by
    rintro w hw c hc rfl
    rw [Casing.small_of_isCanonical (h w hw) c hc] at other
    contradiction
  have humps : Casing.camel = .kebab → '-' ≠ x := nofun
  intro hx
  rcases List.mem_append.mp hx with hx | hx
  · exact mark (List.eq_of_mem_replicate hx).symm
  · exact (caseStable_ne sign).assemble mark humps apart x hx rfl

def ofWords (marks : Nat) (ws : List (List Char)) (h : ∀ w ∈ ws, Casing.isCanonical w = true)
    (nonempty : List.replicate marks '_' ++ Casing.assemble .camel ws ≠ []) : FieldName where
  chars := List.replicate marks '_' ++ Casing.assemble .camel ws
  nonempty := nonempty
  undivided := ⟨not_mem_camel marks h (by decide) (by decide) (by decide),
    not_mem_camel marks h (by decide) (by decide) (by decide)⟩
  restored := by
    rw [Casing.convertChars_assemble .camel .snake marks h,
      Casing.convertChars_assemble .snake .camel marks h]

theorem storageChars_chars (x : FieldName) : ({} : Naming).storageChars x.chars = x.stored := by
  rw [Naming.storageChars, unmarked_of_not_mem x.undivided.2, parts_of_not_mem x.undivided.1]
  exact Naming.segment_eq {} x.chars

theorem unmarked_append (x : FieldName) (rest : List Char) :
    unmarked ':' (x.chars ++ rest) = none := by
  obtain ⟨c, s, hs⟩ := List.exists_cons_of_ne_nil x.nonempty
  have other : c ≠ ':' := fun hc => x.undivided.2 (by rw [hs, hc]; exact List.mem_cons_self)
  rw [hs]
  exact if_neg other

end FieldName

/-- A key to return: a column, of a table if one is named, and under a label if there is one. -/
structure ReturnKey where
  table : Option FieldName
  name : FieldName
  label : Option FieldName

namespace ReturnKey

def place (k : ReturnKey) (spelled : FieldName → List Char) : List Char :=
  match k.table with
  | some t => spelled t ++ '.' :: spelled k.name
  | none => spelled k.name

def text (k : ReturnKey) : String :=
  match k.label with
  | some l => String.ofList (k.place FieldName.chars ++ ':' :: l.chars)
  | none => String.ofList (k.place FieldName.chars)

def written (k : ReturnKey) : String :=
  match k.label with
  | some l => String.ofList (k.place FieldName.stored) ++ " AS " ++ String.ofList l.stored
  | none => String.ofList (k.place FieldName.stored)

def column (k : ReturnKey) : String := String.ofList (k.label.getD k.name).stored

def isName (k : ReturnKey) : Bool := k.table.isNone && k.label.isNone

def statement (k : ReturnKey) (table : String) : String :=
  "SELECT " ++ k.written ++ " FROM " ++ ({} : Naming).storageName table ++ " LIMIT 1"

theorem undivided_place (k : ReturnKey) : ':' ∉ k.place FieldName.chars := by
  have name := k.name.undivided.2
  unfold place
  split
  next t _ =>
    have table := t.undivided.2
    simp [table, name]
  next => exact name

theorem unmarked_place (k : ReturnKey) (rest : List Char) :
    unmarked ':' (k.place FieldName.chars ++ rest) = none := by
  unfold place
  split
  next t _ =>
    rw [List.append_assoc]
    exact t.unmarked_append _
  next => exact k.name.unmarked_append rest

theorem storageChars_place (k : ReturnKey) :
    ({} : Naming).storageChars (k.place FieldName.chars) = k.place FieldName.stored := by
  unfold place
  split
  next t _ =>
    rw [Naming.storageChars, t.unmarked_append, parts_append t.undivided.1,
      parts_of_not_mem k.name.undivided.1]
    show ({} : Naming).segment t.chars ++ ['.'] ++ ({} : Naming).segment k.name.chars = _
    rw [Naming.segment_eq, Naming.segment_eq, List.append_assoc]
    rfl
  next => exact k.name.storageChars_chars

theorem selectKey_text (k : ReturnKey) : ({} : Naming).selectKey k.text = k.written := by
  unfold text written
  cases k.label with
  | some l =>
    dsimp only
    rw [Naming.selectKey, String.toList_ofList, k.unmarked_place,
      cutFirst_append k.undivided_place]
    dsimp only
    rw [k.storageChars_place, l.storageChars_chars]
  | none =>
    dsimp only
    rw [Naming.selectKey, String.toList_ofList, unmarked_of_not_mem k.undivided_place,
      cutFirst_of_not_mem k.undivided_place]
    dsimp only
    rw [Naming.storageName, String.toList_ofList, k.storageChars_place]

def spec (k : ReturnKey) (table : String) : Spec :=
  { table, select := [k.text], limit := some 1, first := .field k.text }

theorem checked_firstField (k : ReturnKey) {table : String} (named : isBlankText table = false) :
    (Draft.ofEdits table [.firstField k.text]).checked = .ok (k.spec table) := by
  have started : Draft.start table = ⟨{ table }, none⟩ := by rw [Draft.start, named]; rfl
  show ((Draft.start table).edit (.firstField k.text)).checked = _
  rw [started]
  rfl

theorem compile_spec (k : ReturnKey) (table : String) {config : Config}
    (camel : config.naming = {}) (schema : Schema) :
    compile (k.spec table) config schema = .ok ⟨k.statement table, []⟩ := by
  have selected : (config.dialect schema).keys [k.text] = [k.written] := by
    show [config.naming.selectKey k.text] = _
    rw [camel, k.selectKey_text]
  have written : (config.dialect schema).statement (k.spec table) =
      .ok [.text "SELECT ", .text k.written,
        .text (" FROM " ++ config.naming.storageName table), .text " LIMIT 1"] := by
    show Except.ok (_ :: (Sql.listed ((config.dialect schema).keys [k.text] ++ []) ++ _ ++ _)) = _
    rw [selected]
    rfl
  have text : Sql.compiled [.text "SELECT ", .text k.written,
      .text (" FROM " ++ ({} : Naming).storageName table), .text " LIMIT 1"] =
        ⟨k.statement table, []⟩ := by
    simp [Sql.compiled, Sql.charsFrom, Sql.params, statement, ← String.toList_inj]
  rw [compile_eq, written, camel, ← text]
  rfl

/-- The application has the column of a key under the last name in the key. -/
theorem toApp_column (k : ReturnKey) :
    ({} : Naming).toApp k.column = String.ofList (k.label.getD k.name).chars := by
  rw [Naming.toApp, Casing.convert, column, String.toList_ofList]
  exact congrArg String.ofList (k.label.getD k.name).restored

theorem toApp_column_of_isName {k : ReturnKey} (h : k.isName = true) :
    ({} : Naming).toApp k.column = k.text := by
  obtain ⟨table, name, label⟩ := k
  cases table <;> cases label <;> first | contradiction | exact toApp_column _

/-- A sign in the key tells it from the name of a field. -/
theorem divided_text {k : ReturnKey} (h : k.isName = false) :
    '.' ∈ k.text.toList ∨ ':' ∈ k.text.toList := by
  obtain ⟨table, name, label⟩ := k
  cases table <;> cases label <;> simp_all [isName, text, place]

theorem toApp_ne_text {k : ReturnKey} (h : k.isName = false) {column : String}
    (undivided : '.' ∉ column.toList ∧ ':' ∉ column.toList) :
    ({} : Naming).toApp column ≠ k.text := by
  have kept {x : Char} (sign : isSign x = true) (absent : x ∉ column.toList) :
      x ∉ (({} : Naming).toApp column).toList := by
    have humps : ({} : Naming).app = .kebab → x ≠ '-' := nofun
    rw [Naming.toApp, Casing.convert, String.toList_ofList]
    exact not_mem_convertChars sign humps absent
  intro same
  rcases divided_text h with dot | colon
  · exact kept (by decide) undivided.1 (same ▸ dot)
  · exact kept (by decide) undivided.2 (same ▸ colon)

end ReturnKey

namespace Draft
variable {σ : Type} [Link σ] {good : Option Address → σ → Prop}
  {answers : String → List Json → List Record → Prop} {n : Nat} {w : World σ} {d : Draft}
  {spec : Spec}

/-- A query for a single field that has no window. -/
theorem execute_field (h : Link.Serving good answers) (hw : w.Ready good n)
    (hd : d.checked = .ok spec) {field : String} (wanted : spec.first = .field field)
    (unpaged : spec.window = none) (writable : spec.Writable (w.session n).config) :
    ∃ rows v, w.Runs good answers n spec v rows ∧
      (execute n d).start w = (.ok (.value (rows.head?.bind fun row =>
        Assoc.get? ((w.session n).converted row) field)), v) := by
  obtain ⟨rows, v, runs, hv⟩ := answer_value h hw wanted writable
  refine ⟨rows, v, runs, ?_⟩
  rw [execute, start_checked_ok hd, Spec.unpaged_of_window unpaged, Act.start_bind_ok hv,
    unpaged]
  rfl

/-- Of a row that shows its column the first field is read if the key is the name of a column. A
key that names a table or a label as well is sought in vain, although SQL gives the column the last
name in the key. -/
theorem first_field_read (h : Link.Serving good answers) (hw : w.Ready good n)
    (camel : (w.session n).config.naming = {}) {table : String}
    (named : isBlankText table = false) (key : ReturnKey) {value : Json}
    (present : value.isNull = false)
    (shown : ∀ rows, answers (key.statement table) [] rows →
      ∃ row rest, rows = row :: rest ∧ ({} : Naming).Shows row key.column value) :
    let d := ofEdits table [.firstField key.text]
    (∀ schema, compile (key.spec table) (w.session n).config schema =
      .ok ⟨key.statement table, []⟩) ∧
    (key.isName = true → ∃ v, (execute n d).start w = (.ok (.value (some value)), v)) ∧
    (key.isName = false →
      (∀ rows, answers (key.statement table) [] rows →
        ∀ row ∈ rows, ∀ e ∈ row, '.' ∉ e.1.toList ∧ ':' ∉ e.1.toList) →
      ∃ v, (execute n d).start w = (.ok (.value none), v)) := by
  intro d
  have compiled := key.compile_spec table camel
  obtain ⟨rows, v, ⟨schema, c, -, hc, answered, -, -⟩, hv⟩ := execute_field h hw
    (key.checked_firstField named) rfl rfl ⟨_, compiled []⟩
  obtain rfl := Except.ok.inj ((compiled schema).symm.trans hc)
  obtain ⟨row, rest, rfl, shows⟩ := shown rows answered
  rw [List.head?_cons, Option.bind_some] at hv
  refine ⟨compiled, fun name => ⟨v, ?_⟩, fun divided undivided => ⟨v, ?_⟩⟩
  · rw [← camel] at shows
    have found := Session.get?_converted shows present
    rw [camel, ReturnKey.toApp_column_of_isName name] at found
    rw [hv, found]
  · have apart : ∀ e ∈ row, (w.session n).config.naming.toApp e.1 ≠ key.text := by
      intro e he
      rw [camel]
      exact ReturnKey.toApp_ne_text divided (undivided _ answered row List.mem_cons_self e he)
    rw [hv, Session.get?_converted_of_ne apart]

/-- The first name of a user, by its name and with the table in front. -/
theorem first_field_read_of_user :
    let link : Script := { responses := [("users", [[("first_name", .string "Ann")]])] }
    let w : World Script :=
      { wire := { link }, sessions := [(1, { number := 1, database := ⟨0, none⟩ })] }
    (∃ v, (execute 1 (ofEdits "users" [.firstField "firstName"])).start w =
        (.ok (.value (some (.string "Ann"))), v)) ∧
      ∃ v, (execute 1 (ofEdits "users" [.firstField "users.firstName"])).start w =
        (.ok (.value none), v) := by
  intro link w
  have ready : w.Ready (fun address l => address = none ∧ l = link) 1 :=
    ⟨⟨by decide, by decide⟩, rfl, rfl⟩
  let users : FieldName := .ofWords 0 [['u', 's', 'e', 'r', 's']] (by decide) (by decide)
  let firstName : FieldName :=
    .ofWords 0 [['f', 'i', 'r', 's', 't'], ['n', 'a', 'm', 'e']] (by decide) (by decide)
  let key (table : Option FieldName) : ReturnKey := ⟨table, firstName, none⟩
  have bare : (key none).text = "firstName" := by decide +kernel
  have qualified : (key (some users)).text = "users.firstName" := by decide +kernel
  have answered (table : Option FieldName) (known : table ∈ [none, some users]) :
      (key table).column = "first_name" ∧
        link.rows ((key table).statement "users") = [[("first_name", .string "Ann")]] := by
    rcases List.mem_pair.mp known with rfl | rfl <;> decide +kernel
  have shown (table : Option FieldName) (known : table ∈ [none, some users]) (rows : List Record)
      (hr : rows = link.rows ((key table).statement "users")) : ∃ row rest, rows = row :: rest ∧
        ({} : Naming).Shows row (key table).column (.string "Ann") := by
    obtain ⟨column, here⟩ := answered table known
    rw [hr, here, column]
    exact ⟨_, [], rfl, Naming.shows_singleton {} _ _⟩
  obtain ⟨-, found, -⟩ := first_field_read (Script.serving link rfl rfl) ready rfl
    (by decide : isBlankText "users" = false) (key none) rfl (shown none List.mem_cons_self)
  obtain ⟨-, -, missed⟩ := first_field_read (Script.serving link rfl rfl) ready rfl
    (by decide : isBlankText "users" = false) (key (some users)) rfl
    (shown _ (List.mem_cons_of_mem _ List.mem_cons_self))
  rw [bare] at found
  rw [qualified] at missed
  refine ⟨found rfl, missed rfl ?_⟩
  rintro rows hr
  rw [hr, (answered _ (List.mem_cons_of_mem _ List.mem_cons_self)).2]
  decide

/-- With the table in front, or a label behind it, the same name is not found, although the link
answers with what SQL calls the column. -/
theorem first_field_unread_qualified :
    let link : Script := { responses :=
      [("users.first_name", [[("first_name", .string "Ann")]]),
        ("AS name", [[("name", .string "Ann")]])] }
    let config : Config := { introspect := false }
    let w : World Script :=
      { wire := { link }, sessions := [(1, { number := 1, database := ⟨0, none⟩, config })] }
    let run := fun key => (execute 1 (ofEdits "users" [.firstField key])).start w
    ((run "users.firstName").1.toOption.map Output.toJson = some .null ∧
      (run "users.firstName").2.wire.asked = [("SELECT users.first_name FROM users LIMIT 1", [])] ∧
      link.rows "SELECT users.first_name FROM users LIMIT 1" =
        [[("first_name", .string "Ann")]]) ∧
    (run "firstName:name").1.toOption.map Output.toJson = some .null ∧
      (run "firstName:name").2.wire.asked =
        [("SELECT first_name AS name FROM users LIMIT 1", [])] ∧
      link.rows "SELECT first_name AS name FROM users LIMIT 1" = [[("name", .string "Ann")]] := by
  decide +kernel

end Draft
end DataAccess
