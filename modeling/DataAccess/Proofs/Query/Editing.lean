import DataAccess.Proofs.Query.Mistakes

/-! Steps of a query are refused only for mistakes of the caller. -/
namespace DataAccess

/-- A computation fails only by mistakes of the caller. -/
abbrev Validates {α : Type} (x : Except Error α) : Prop :=
  OnlyFails (fun e => e.isValidation = true) x

namespace Condition
variable (reading : Reading)

theorem validates_comparison (column : String) (comparer : Comparer) (v : Json) :
    Validates (comparison reading column comparer v) := by
  unfold comparison
  split
  · exact .error rfl
  · split
    · exact .ok _
    · exact .ok _
    · exact .error rfl

theorem validates_comparisons (comparer : Comparer) (fields : Record) :
    Validates (comparisons reading comparer fields) := by
  induction fields with
  | nil => exact .ok _
  | cons e rest ih =>
    exact (validates_comparison reading e.1 comparer e.2).bind fun _ => ih.bind fun _ => .ok _

mutual
theorem validates_columnTerm (column : String) (v : Json) :
    Validates (columnTerm reading column v) := by
  cases v with
  | object fields =>
    rw [columnTerm]
    split
    · refine (validates_columnTerms column fields).bind fun cs => ?_
      cases conjunction cs with
      | none => exact .error rfl
      | some c => exact .ok c
    · exact .error rfl
  | null | bool | number | string | array =>
    simp only [columnTerm]
    exact validates_comparison reading column .eq _

theorem validates_columnTerms (column : String) (fields : List (String × Json)) :
    Validates (columnTerms reading column fields) := by
  cases fields with
  | nil => exact .ok _
  | cons e rest =>
    obtain ⟨key, v⟩ := e
    rw [columnTerms]
    have others (c : Condition) :
        Validates (do return c :: (← columnTerms reading column rest)) :=
      (validates_columnTerms column rest).bind fun _ => .ok _
    split
    · exact (validates_comparison reading column _ v).bind others
    · exact (validates_columnGroup column key v).map.bind others
    · split
      · refine OnlyFails.bind (.error ?_) others
        rfl
      · refine OnlyFails.bind (.error ?_) others
        rfl

theorem validates_columnGroup (column key : String) (v : Json) :
    Validates (columnGroup reading column key v) := by
  cases v with
  | object fields =>
    rw [columnGroup]
    exact validates_columnTerms column fields
  | array items =>
    rw [columnGroup]
    exact validates_columnItems column items
  | null | bool | number | string =>
    simp only [columnGroup]
    exact .error rfl

theorem validates_columnItems (column : String) (items : List Json) :
    Validates (columnItems reading column items) := by
  cases items with
  | nil => exact .ok _
  | cons v rest =>
    rw [columnItems]
    exact (validates_columnTerm column v).bind fun _ =>
      (validates_columnItems column rest).bind fun _ => .ok _
end

theorem validates_entryTerm (key : String) (v : Json) : Validates (entryTerm reading key v) := by
  unfold entryTerm
  split
  next comparer fields _ =>
    refine (validates_comparisons reading comparer fields).bind fun cs => ?_
    cases conjunction cs with
    | none => exact .error rfl
    | some c => exact .ok c
  next => exact .error rfl
  next =>
    split
    · exact .error rfl
    · exact validates_columnTerm reading key _

mutual
theorem validates_terms (v : Json) : Validates (terms reading v) := by
  cases v with
  | null => exact .ok _
  | object fields =>
    rw [terms]
    exact validates_entryTerms fields
  | array items =>
    rw [terms]
    exact validates_itemTerms items
  | bool | number | string =>
    simp only [terms]
    exact .error rfl

theorem validates_entryTerms (fields : List (String × Json)) :
    Validates (entryTerms reading fields) := by
  cases fields with
  | nil => exact .ok _
  | cons e rest =>
    obtain ⟨key, v⟩ := e
    rw [entryTerms]
    have others (c : Condition) : Validates (do return c :: (← entryTerms reading rest)) :=
      (validates_entryTerms rest).bind fun _ => .ok _
    split
    · exact (validates_terms v).map.bind others
    · exact (validates_entryTerm reading key v).bind others

theorem validates_itemTerms (items : List Json) : Validates (itemTerms reading items) := by
  cases items with
  | nil => exact .ok _
  | cons v rest =>
    rw [itemTerms]
    exact (validates_terms v).bind fun _ => (validates_itemTerms rest).bind fun _ => .ok _
end

end Condition

theorem Join.validates_ofJson (j : Json) : Validates (Join.ofJson j) := by
  unfold ofJson
  split
  · exact .error rfl
  · exact .ok _
  · exact (Condition.validates_terms .columns _).bind fun _ => .ok _

namespace Edit

theorem validates_assign (s : Spec) (command : Command) (v : Json) :
    Validates (assign s command v) := by
  unfold assign
  split
  · exact .ok _
  · split
    · exact .ok _
    · exact .error rfl
  · exact .error rfl

theorem validates_apply (s : Spec) (e : Edit) : Validates (e.apply s) := by
  cases e with
  | filter conditions | having conditions =>
    exact (Condition.validates_terms .values conditions).bind fun _ => .ok _
  | joinValue join => exact (Join.validates_ofJson join).bind fun _ => .ok _
  | insert values | update values => exact validates_assign s _ values
  | _ => exact .ok _

end Edit

namespace Draft

/-- Whatever steps a query is put together by, it is refused only for mistakes of the caller. -/
theorem validates_checked (table : String) (edits : List Edit) :
    Validates (ofEdits table edits).checked := by
  intro e refused
  cases checked_eq_error.mp refused with
  | table edits blank => rfl
  | @step before bad _ after named sound mistake =>
    exact bad.validates_apply (start table).spec e (Edit.apply_eq_error.mpr mistake)

end Draft
end DataAccess
