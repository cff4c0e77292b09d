import DataAccess.Proofs.Assoc
import DataAccess.Proofs.Session.Asked
import DataAccess.Proofs.Text.Cut
import DataAccess.Schema.Loading

/-!
Look-ups of column types: which tables are asked for, what the link answers, and what becomes of a
catalogue.
-/
namespace DataAccess

/-- Different tables are asked for by different parameters. -/
theorem Schema.columnsParams_injective : Function.Injective columnsParams := by
  intro s t h
  unfold columnsParams at h
  split at h
  next space name hs =>
    split at h
    next space' name' ht =>
      obtain ⟨hspace, hname⟩ : String.ofList space = String.ofList space' ∧
          String.ofList name = String.ofList name' := by simpa using h
      rw [String.ofList_injective hspace, String.ofList_injective hname] at hs
      exact String.toList_injective
        ((Text.cutLast_eq_some hs).trans (Text.cutLast_eq_some ht).symm)
    next => simp at h
  next =>
    split at h
    next => simp at h
    next => simpa using h

namespace TableSchema

theorem ofRow?_eq_some {row : Record} {column : String} {type : ColumnType} :
    ofRow? row = some (column, type) ↔
      Assoc.get? row "column_name" = some (.string column) ∧
        Assoc.get? row "udt_name" = some (.string type.name) := by
  have text {v : Json} {s : String} : v.text? = some s ↔ v = .string s := by
    cases v <;> simp [Json.text?]
  obtain ⟨udt⟩ := type
  simp [ofRow?, Option.bind_eq_some_iff, text]

/-- A column has the type of the last row that names it with a type. -/
theorem get?_ofRows {rows : List Record} {column : String} {type : ColumnType} :
    Assoc.get? (ofRows rows) column = some type ↔
      ∃ before row after, rows = before ++ row :: after ∧ ofRow? row = some (column, type) ∧
        ∀ later ∈ after, ∀ other, ofRow? later ≠ some (column, other) := by
  rw [ofRows, Assoc.get?_ofList_eq_some]
  constructor
  · rintro ⟨before, after, parted, last⟩
    obtain ⟨rowsBefore, rest, rfl, rfl, rest_eq⟩ := List.filterMap_eq_append_iff.mp parted
    obtain ⟨skipped, row, rowsAfter, rfl, -, named, rfl⟩ := List.filterMap_eq_cons_iff.mp rest_eq
    refine ⟨rowsBefore ++ skipped, row, rowsAfter, by simp, named, fun later mem other told => ?_⟩
    exact last _ (List.mem_filterMap.mpr ⟨later, mem, told⟩) rfl
  · rintro ⟨before, row, after, rfl, named, last⟩
    refine ⟨before.filterMap ofRow?, after.filterMap ofRow?, by simp [named], fun e mem same => ?_⟩
    obtain ⟨later, mem, told⟩ := List.mem_filterMap.mp mem
    exact last later mem e.2 (same ▸ told)

end TableSchema

/-- A table that was asked for, by the parameters that name it, and the rows that were the answer,
if the link did not refuse. -/
structure Lookup where
  params : List Json
  rows : Option (List Record)
  deriving DecidableEq

section
variable {σ : Type} [Link σ]

def Call.lookup? (link : σ) : Call → Option Lookup
  | .query _ client sql params _ =>
    if sql = Schema.columnsSql then
      some ⟨params, (Link.query link client sql params).1.toOption⟩
    else none
  | _ => none

namespace World

/-- The look-ups between two worlds. A statement has a turn of its own, so that it is the link of
the first world that gives the answer. -/
def lookups (w v : World σ) : List Lookup :=
  (v.wire.calls.drop w.wire.calls.length).filterMap (Call.lookup? w.wire.link)

variable {w v : World σ}

theorem lookups_of_calls {calls : List Call} (h : v.wire.calls = w.wire.calls ++ calls) :
    w.lookups v = calls.filterMap (Call.lookup? w.wire.link) := by
  rw [lookups, h, List.drop_left]

theorem lookups_of_asks (h : w.wire.Asks v.wire []) : w.lookups v = [] := by
  obtain ⟨calls, hc, quiet⟩ := h
  rw [lookups_of_calls hc, List.filterMap_eq_nil_iff]
  intro x hx
  have unasked := List.filterMap_eq_nil_iff.mp quiet x hx
  cases x with
  | query session client sql params accepted =>
    rw [Call.lookup?, if_neg]
    rintro rfl
    have users : isOwn Schema.columnsSql = false := by decide
    simp [Call.asked?, users] at unasked
  | connect | release | finish | pause => rfl

theorem lookups_self (w : World σ) : w.lookups w = [] := lookups_of_asks (.refl _)

/-- A look-up is answered by the link, if the session is connected. -/
theorem lookups_statement (w : World σ) (n : Nat) (params : List Json) :
    let answer := ((w.scope n).statement Schema.columnsSql params).1
    let v := w.perform n (.statement Schema.columnsSql params)
    ((∃ e, answer = .error e) ∧ w.lookups v = []) ∨ w.lookups v = [⟨params, answer.toOption⟩] := by
  intro answer v
  rcases Scope.statement_cases (w.scope n) Schema.columnsSql params with
    ⟨-, hs⟩ | ⟨client, got, t, hc, hs, -, hw⟩
  · have still : v.wire.calls = w.wire.calls := by
      show ((w.scope n).statement Schema.columnsSql params).2.wire.calls = _
      rw [hs]
      rfl
    exact .inl ⟨⟨_, congrArg Prod.fst hs⟩, lookups_of_asks (Wire.asks_of_calls_eq still)⟩
  · have calls : v.wire.calls = w.wire.calls ++
        [.query (w.session n).number client Schema.columnsSql params got.isOk] := by
      show ((w.scope n).statement Schema.columnsSql params).2.wire.calls = _
      rw [hs]
      exact hw
    have asked : (Link.query w.wire.link client Schema.columnsSql params).1 = answer := by
      simp only [answer, Scope.statement, hc]
      rfl
    rw [lookups_of_calls calls]
    exact .inr (by simp [Call.lookup?, asked])

end World
end

namespace Schema

/-- The part of a catalogue that is about some tables knows what the catalogue knows of them. -/
theorem get?_restricted (s : Schema) (tables : List String) (table : String) :
    Assoc.get? (s.restricted tables) table =
      if table ∈ tables then Assoc.get? s table else none := by
  have agrees : ∀ e ∈ tables.filterMap fun t => (Assoc.get? s t).map fun columns => (t, columns),
      Assoc.get? s e.1 = some e.2 := by
    intro e he
    obtain ⟨t, -, ht⟩ := List.mem_filterMap.mp he
    obtain ⟨columns, hc, rfl⟩ := Option.map_eq_some_iff.mp ht
    exact hc
  rw [restricted, Assoc.ofList, Assoc.get?_putAll_of_agrees agrees]
  by_cases ht : table ∈ tables
  · cases hs : Assoc.get? s table <;> simp [ht, hs, Assoc.get?]
  · simp [ht, Assoc.get?]

/-- From `s` to `t` a catalogue has come to have all of `tables`: `loads` were looked up, each once
and because it was missing, and have the columns that were told. All else is as it was. -/
structure Grown (tables : List String) (loads : List (String × List Record)) (s t : Schema) :
    Prop where
  once : (loads.map Prod.fst).Nodup
  missing : ∀ e ∈ loads, e.1 ∈ tables ∧ Assoc.get? s e.1 = none
  now : ∀ table, Assoc.get? t table =
    ((Assoc.get? loads table).map TableSchema.ofRows).or (Assoc.get? s table)
  present : ∀ table ∈ tables, (Assoc.get? t table).isSome

namespace Grown
variable {table : String} {rest : List String} {loads : List (String × List Record)} {s t : Schema}

theorem nil (s : Schema) : Grown [] [] s s := ⟨by simp, by simp, fun _ => rfl, by simp⟩

/-- A table that is there is not looked up. -/
theorem found (h : Grown rest loads s t) (known : (Assoc.get? s table).isSome) :
    Grown (table :: rest) loads s t := by
  refine ⟨h.once, fun e he => ?_, h.now, fun other ho => ?_⟩
  · exact ⟨List.mem_cons_of_mem _ (h.missing e he).1, (h.missing e he).2⟩
  · rcases List.mem_cons.mp ho with rfl | ho
    · rw [h.now, Option.isSome_or, known, Bool.or_true]
    · exact h.present other ho

theorem loaded {rows : List Record} (missing : Assoc.get? s table = none)
    (h : Grown rest loads (Assoc.put s table (.ofRows rows)) t) :
    Grown (table :: rest) ((table, rows) :: loads) s t := by
  have other (e : String × List Record) (he : e ∈ loads) :
      table ≠ e.1 ∧ Assoc.get? s e.1 = none := by
    have absent := (h.missing e he).2
    rw [Assoc.get?_put] at absent
    split_ifs at absent with ht
    exact ⟨ht, absent⟩
  have fresh : Assoc.get? loads table = none := by
    cases hl : Assoc.get? loads table with
    | none => rfl
    | some rows => exact absurd rfl (other _ (Assoc.mem_of_get? hl)).1
  refine ⟨?_, fun e he => ?_, fun name => ?_, fun name hn => ?_⟩
  · refine List.nodup_cons.mpr ⟨fun hm => ?_, h.once⟩
    obtain ⟨e, he, heq⟩ := List.mem_map.mp hm
    exact (other e he).1 heq.symm
  · rcases List.mem_cons.mp he with rfl | he
    · exact ⟨List.mem_cons_self, missing⟩
    · exact ⟨List.mem_cons_of_mem _ (h.missing e he).1, (other e he).2⟩
  · rw [h.now, Assoc.get?_put, Assoc.get?]
    split_ifs with ht
    · rw [← ht, fresh]
      rfl
    · rfl
  · rcases List.mem_cons.mp hn with rfl | hn
    · rw [h.now, Assoc.get?_put, if_pos rfl]
      simp
    · exact h.present name hn

end Grown

def told (e : String × List Record) : Lookup := ⟨columnsParams e.1, some e.2⟩

/-- Tables are ensured one after the other, all of them or until a look-up fails. -/
inductive Ensured (tables : List String) (s : Schema) :
    List Lookup → Schema → Except Error Unit → Prop
  | all {loads : List (String × List Record)} {t : Schema} :
    Grown tables loads s t → Ensured tables s (loads.map told) t (.ok ())
  | failed {before after : List String} {table : String} {loads : List (String × List Record)}
    {failing : List Lookup} {t : Schema} (e : Error) : tables = before ++ table :: after →
      Grown before loads s t → Assoc.get? t table = none → failing.length ≤ 1 →
        (∀ l ∈ failing, l.params = columnsParams table) →
          Ensured tables s (loads.map told ++ failing) t (.error e)

namespace Ensured
variable {table : String} {rest : List String} {s t : Schema} {tries : List Lookup}
  {o : Except Error Unit}

theorem found (h : Ensured rest s tries t o) (known : (Assoc.get? s table).isSome) :
    Ensured (table :: rest) s tries t o := by
  cases h with
  | all grown => exact .all (grown.found known)
  | failed e tables grown absent few only =>
    exact .failed e (congrArg (table :: ·) tables) (grown.found known) absent few only

theorem loaded {rows : List Record} (missing : Assoc.get? s table = none)
    (h : Ensured rest (Assoc.put s table (.ofRows rows)) tries t o) :
    Ensured (table :: rest) s (told (table, rows) :: tries) t o := by
  cases h with
  | all grown => exact .all (grown.loaded missing)
  | failed e tables grown absent few only =>
    exact .failed e (congrArg (table :: ·) tables) (grown.loaded missing) absent few only

end Ensured

end Schema
end DataAccess
