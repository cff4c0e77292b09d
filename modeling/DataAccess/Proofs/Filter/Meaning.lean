import DataAccess.Filter.Reader
import DataAccess.Proofs.Filter.Truth
import DataAccess.Proofs.Outcome
import Mathlib.Data.List.Forall2

/-!
What a filter means as it is written, and what the terms mean that are read from it. The reader
drops the elements of lists that have no conditions. Such an element holds, so it can be left out
where elements hold together, but not where one of them is enough.
-/
namespace DataAccess.Condition

def rightSide : Reading → Json → Operand
  | .columns, .string other => .column other
  | _, v => .value v

mutual
def columnTree (reading : Reading) (column : String) : Json → Condition
  | .object fields => .group .and (columnTrees reading column fields)
  | v => .leaf column .eq (rightSide reading v)
termination_by structural v => v

def columnTrees (reading : Reading) (column : String) : List (String × Json) → List Condition
  | [] => []
  | (key, v) :: rest =>
    (match Comparer.ofKeyword? key, Operator.ofKeyword? key with
    | some comparer, _ => .leaf column comparer (rightSide reading v)
    | none, some o => .group o (columnParts reading column v)
    | none, none => .group .and []) :: columnTrees reading column rest
termination_by structural fields => fields

def columnParts (reading : Reading) (column : String) : Json → List Condition
  | .object fields => columnTrees reading column fields
  | .array items => columnItemTrees reading column items
  | _ => []
termination_by structural v => v

def columnItemTrees (reading : Reading) (column : String) : List Json → List Condition
  | [] => []
  | v :: rest => columnTree reading column v :: columnItemTrees reading column rest
termination_by structural items => items
end

def entryTree (reading : Reading) (key : String) (v : Json) : Condition :=
  match Comparer.ofKeyword? key, v with
  | some comparer, .object fields =>
    .group .and (fields.map fun e => .leaf e.1 comparer (rightSide reading e.2))
  | _, v => columnTree reading key v

mutual
def parts (reading : Reading) : Json → List Condition
  | .object fields => entryTrees reading fields
  | .array items => itemTrees reading items
  | _ => []
termination_by structural v => v

def entryTrees (reading : Reading) : List (String × Json) → List Condition
  | [] => []
  | (key, v) :: rest =>
    (match Operator.ofKeyword? key with
    | some o => .group o (parts reading v)
    | none => entryTree reading key v) :: entryTrees reading rest
termination_by structural fields => fields

def itemTrees (reading : Reading) : List Json → List Condition
  | [] => []
  | v :: rest => .group .and (parts reading v) :: itemTrees reading rest
termination_by structural items => items
end

/-- A filter as it is written, group by group: entries and elements hold together unless they
stand under `$or`, also where there are none. -/
def asWritten (filter : Json) : Condition := .group .and (parts .values filter)

mutual
def isIdle : Json → Bool
  | .null => true
  | .object fields => fields.isEmpty
  | .array items => areIdle items
  | _ => false
termination_by structural v => v

def areIdle : List Json → Bool
  | [] => true
  | v :: rest => isIdle v && areIdle rest
termination_by structural items => items
end

def hasIdle : Json → Bool
  | .array items => items.any isIdle
  | _ => false

mutual
/-- Somewhere a list under `$or` has an element that says nothing. -/
def offersIdle : Json → Bool
  | .object fields => entriesOfferIdle fields
  | .array items => itemsOfferIdle items
  | _ => false
termination_by structural v => v

def entriesOfferIdle : List (String × Json) → Bool
  | [] => false
  | (key, v) :: rest =>
    (match Operator.ofKeyword? key with
    | some o => o = .or && hasIdle v || offersIdle v
    | none => false) || entriesOfferIdle rest
termination_by structural fields => fields

def itemsOfferIdle : List Json → Bool
  | [] => false
  | v :: rest => offersIdle v || itemsOfferIdle rest
termination_by structural items => items
end

/-- A relation of truth values that AND and OR keep, and that nothing but truth has to truth. -/
structure Respected (R : Bool → Bool → Prop) : Prop where
  refl (b : Bool) : R b b
  and {a b c d : Bool} : R a b → R c d → R (a && c) (b && d)
  or {a b c d : Bool} : R a b → R c d → R (a || c) (b || d)
  top {b : Bool} : R true b → b = true

theorem respected_eq : Respected Eq where
  refl _ := rfl
  and := by rintro _ _ _ _ rfl rfl; rfl
  or := by rintro _ _ _ _ rfl rfl; rfl
  top h := h.symm

theorem respected_implies : Respected fun a b => a = true → b = true where
  refl _ := id
  and := by simp only [Bool.and_eq_true]; exact And.imp
  or := by simp only [Bool.or_eq_true]; exact Or.imp
  top h := h rfl

/-- Two trees make the same comparisons, and which of the trees hold is related. -/
structure Related (R : Bool → Bool → Prop) (c d : Condition) : Prop where
  leaves : c.leaves = d.leaves
  holds (truth : Nat → Bool) (n : Nat) : R (c.holds truth n) (d.holds truth n)

namespace Related
variable {R : Bool → Bool → Prop}

theorem refl (hR : Respected R) (c : Condition) : Related R c c := ⟨rfl, fun _ _ => hR.refl _⟩

theorem of_eq (hR : Respected R) {c d : Condition} (h : Related Eq c d) : Related R c d :=
  ⟨h.leaves, fun truth n => h.holds truth n ▸ hR.refl _⟩

theorem eq_trans {b c d : Condition} (h : Related Eq b c) (k : Related R c d) :
    Related R b d :=
  ⟨h.leaves.trans k.leaves, fun truth n => h.holds truth n ▸ k.holds truth n⟩

/-- A group with a child more on both sides. -/
theorem cons (hR : Respected R) {o : Operator} {c d : Condition} {cs ds : List Condition}
    (h : Related R c d) (k : Related R (.group o cs) (.group o ds)) :
    Related R (.group o (c :: cs)) (.group o (d :: ds)) := by
  have leaves : leavesOf cs = leavesOf ds := k.leaves
  refine ⟨by simp only [Condition.leaves, leavesOf, h.leaves, leaves], fun truth n => ?_⟩
  have hrest := k.holds truth (n + c.leaves.length)
  simp only [Condition.holds, truths, h.leaves] at hrest ⊢
  cases o with
  | and => exact hR.and (h.holds truth n) hrest
  | or => exact hR.or (h.holds truth n) hrest

theorem group (hR : Respected R) (o : Operator) {cs ds : List Condition}
    (h : List.Forall₂ (Related R) cs ds) : Related R (.group o cs) (.group o ds) := by
  induction h with
  | nil => exact refl hR _
  | cons hc _ ih => exact cons hR hc ih

end Related

theorem related_conjunction {terms : List Condition} {c : Condition}
    (h : conjunction terms = some c) : Related Eq c (.group .and terms) := by
  unfold conjunction at h
  split at h
  · contradiction
  · cases h
    exact ⟨by simp [leaves, leavesOf], fun truth n => by simp [holds, truths]⟩
  · cases h
    exact .refl respected_eq _

theorem comparison_ok {reading : Reading} {column : String} {comparer : Comparer} {v : Json}
    {c : Condition} (h : comparison reading column comparer v = .ok c) :
    c = .leaf column comparer (rightSide reading v) := by
  unfold comparison at h
  split at h
  · contradiction
  · split at h <;> cases h <;> rfl

theorem comparisons_ok {reading : Reading} {comparer : Comparer} {fields : Record}
    {cs : List Condition} (h : comparisons reading comparer fields = .ok cs) :
    cs = fields.map fun e => .leaf e.1 comparer (rightSide reading e.2) := by
  induction fields generalizing cs with
  | nil =>
    cases h
    rfl
  | cons e rest ih =>
    obtain ⟨c, hc, h⟩ := bind_eq_ok.mp h
    obtain ⟨cs, hcs, h⟩ := bind_eq_ok.mp h
    cases h
    rw [comparison_ok hc, ih hcs]
    rfl

/-- The terms of one column come one from each key, a comparer or an operator. -/
theorem columnTerms_cons {reading : Reading} {column key : String} {v : Json}
    {rest : List (String × Json)} {terms : List Condition}
    (h : columnTerms reading column ((key, v) :: rest) = .ok terms) :
    ∃ c cs, terms = c :: cs ∧ columnTerms reading column rest = .ok cs ∧
      ((∃ comparer, Comparer.ofKeyword? key = some comparer ∧
        comparison reading column comparer v = .ok c) ∨
      Comparer.ofKeyword? key = none ∧ ∃ o children, Operator.ofKeyword? key = some o ∧
        columnGroup reading column key v = .ok children ∧ c = .group o children) := by
  rw [columnTerms] at h
  cases hk : Comparer.ofKeyword? key with
  | some comparer =>
    rw [hk] at h
    obtain ⟨c, hc, h⟩ := bind_eq_ok.mp h
    obtain ⟨cs, hcs, h⟩ := bind_eq_ok.mp h
    cases h
    exact ⟨c, cs, rfl, hcs, .inl ⟨comparer, rfl, hc⟩⟩
  | none =>
    cases ho : Operator.ofKeyword? key with
    | some o =>
      rw [hk, ho] at h
      obtain ⟨c, hc, h⟩ := bind_eq_ok.mp h
      obtain ⟨children, hg, rfl⟩ := map_eq_ok.mp hc
      obtain ⟨cs, hcs, h⟩ := bind_eq_ok.mp h
      cases h
      exact ⟨_, cs, rfl, hcs, .inr ⟨rfl, o, children, rfl, hg, rfl⟩⟩
    | none =>
      simp only [hk, ho] at h
      split at h <;> contradiction

mutual
/-- Of one column, the terms mean what is written. -/
theorem related_columnTerm {reading : Reading} {column : String} (v : Json) {c : Condition}
    (h : columnTerm reading column v = .ok c) : Related Eq c (columnTree reading column v) := by
  cases v with
  | object fields =>
    rw [columnTerm] at h
    split at h
    · obtain ⟨ts, hts, h⟩ := bind_eq_ok.mp h
      split at h
      · cases h
        exact (related_conjunction ‹_›).eq_trans
          (.group respected_eq .and (related_columnTerms fields hts))
      · contradiction
    · contradiction
  | null | bool | number | string | array =>
    rw [comparison_ok h]
    exact .refl respected_eq _

theorem related_columnTerms {reading : Reading} {column : String}
    (fields : List (String × Json)) {cs : List Condition}
    (h : columnTerms reading column fields = .ok cs) :
    List.Forall₂ (Related Eq) cs (columnTrees reading column fields) := by
  cases fields with
  | nil =>
    cases h
    exact .nil
  | cons e rest =>
    obtain ⟨key, v⟩ := e
    obtain ⟨c, cs, rfl, hcs, ⟨comparer, hk, hc⟩ | ⟨hk, o, children, ho, hg, rfl⟩⟩ :=
      columnTerms_cons h
    · have htree : columnTrees reading column ((key, v) :: rest) =
          .leaf column comparer (rightSide reading v) :: columnTrees reading column rest := by
        simp only [columnTrees, hk]
      rw [htree, comparison_ok hc]
      exact .cons (.refl respected_eq _) (related_columnTerms rest hcs)
    · have htree : columnTrees reading column ((key, v) :: rest) =
          .group o (columnParts reading column v) :: columnTrees reading column rest := by
        simp only [columnTrees, hk, ho]
      rw [htree]
      exact .cons (.group respected_eq o (related_columnGroup v hg))
        (related_columnTerms rest hcs)

theorem related_columnGroup {reading : Reading} {column key : String} (v : Json)
    {cs : List Condition} (h : columnGroup reading column key v = .ok cs) :
    List.Forall₂ (Related Eq) cs (columnParts reading column v) := by
  cases v with
  | object fields => exact related_columnTerms fields h
  | array items => exact related_columnItems items h
  | null | bool | number | string => contradiction

theorem related_columnItems {reading : Reading} {column : String} (items : List Json)
    {cs : List Condition} (h : columnItems reading column items = .ok cs) :
    List.Forall₂ (Related Eq) cs (columnItemTrees reading column items) := by
  cases items with
  | nil =>
    cases h
    exact .nil
  | cons v rest =>
    obtain ⟨c, hc, h⟩ := bind_eq_ok.mp h
    obtain ⟨cs, hcs, h⟩ := bind_eq_ok.mp h
    cases h
    exact .cons (related_columnTerm v hc) (related_columnItems rest hcs)
end

theorem related_entryTerm {reading : Reading} {key : String} {v : Json} {c : Condition}
    (h : entryTerm reading key v = .ok c) : Related Eq c (entryTree reading key v) := by
  cases hk : Comparer.ofKeyword? key with
  | some comparer =>
    cases v with
    | object fields =>
      simp only [entryTerm, hk] at h
      obtain ⟨cs, hcs, h⟩ := bind_eq_ok.mp h
      simp only [entryTree, hk, ← comparisons_ok hcs]
      split at h
      · cases h
        exact related_conjunction ‹_›
      · contradiction
    | null | bool | number | string | array =>
      simp only [entryTerm, hk] at h
      contradiction
  | none =>
    simp only [entryTerm, hk] at h
    split at h
    · contradiction
    · simpa only [entryTree, hk] using related_columnTerm v h

/-- The entries of an object come to one term each. -/
theorem entryTerms_cons {reading : Reading} {key : String} {v : Json}
    {rest : List (String × Json)} {terms : List Condition}
    (h : entryTerms reading ((key, v) :: rest) = .ok terms) :
    ∃ c cs, terms = c :: cs ∧ entryTerms reading rest = .ok cs ∧
      ((∃ o children, Operator.ofKeyword? key = some o ∧
        Condition.terms reading v = .ok children ∧ c = .group o children) ∨
      Operator.ofKeyword? key = none ∧ entryTerm reading key v = .ok c) := by
  rw [entryTerms] at h
  cases ho : Operator.ofKeyword? key with
  | some o =>
    rw [ho] at h
    obtain ⟨c, hc, h⟩ := bind_eq_ok.mp h
    obtain ⟨children, hv, rfl⟩ := map_eq_ok.mp hc
    obtain ⟨cs, hcs, h⟩ := bind_eq_ok.mp h
    cases h
    exact ⟨_, cs, rfl, hcs, .inl ⟨o, children, rfl, hv, rfl⟩⟩
  | none =>
    rw [ho] at h
    obtain ⟨c, hc, h⟩ := bind_eq_ok.mp h
    obtain ⟨cs, hcs, h⟩ := bind_eq_ok.mp h
    cases h
    exact ⟨c, cs, rfl, hcs, .inr ⟨rfl, hc⟩⟩

theorem itemTerms_cons {reading : Reading} {v : Json} {rest : List Json}
    {terms : List Condition} (h : itemTerms reading (v :: rest) = .ok terms) :
    ∃ ts more, Condition.terms reading v = .ok ts ∧ itemTerms reading rest = .ok more ∧
      terms = (conjunction ts).toList ++ more := by
  obtain ⟨ts, hts, h⟩ := bind_eq_ok.mp h
  obtain ⟨more, hmore, h⟩ := bind_eq_ok.mp h
  cases h
  exact ⟨ts, more, hts, hmore, rfl⟩

theorem conjunction_eq_none {ts : List Condition} : conjunction ts = none ↔ ts = [] := by
  unfold conjunction
  split <;> simp_all

mutual
/-- No terms come from a value that says nothing, and from no other. -/
theorem isIdle_of_terms {reading : Reading} (v : Json) (h : terms reading v = .ok []) :
    isIdle v = true := by
  cases v with
  | null => rfl
  | object fields =>
    cases fields with
    | nil => rfl
    | cons e rest =>
      obtain ⟨c, cs, hne, -⟩ := entryTerms_cons h
      contradiction
  | array items => exact areIdle_of_itemTerms items h
  | bool | number | string => contradiction

theorem areIdle_of_itemTerms {reading : Reading} (items : List Json)
    (h : itemTerms reading items = .ok []) : areIdle items = true := by
  cases items with
  | nil => rfl
  | cons v rest =>
    obtain ⟨ts, more, hts, hmore, hnil⟩ := itemTerms_cons h
    obtain ⟨hc, rfl⟩ := List.append_eq_nil_iff.mp hnil.symm
    rw [Option.toList_eq_nil_iff, conjunction_eq_none] at hc
    subst hc
    rw [areIdle, isIdle_of_terms v hts, areIdle_of_itemTerms rest hmore]
    rfl
end

/-- A child without conditions may be left out if the others hold together anyway, or if truth is
related to whatever stands in for it. -/
theorem related_cons_idle {R : Bool → Bool → Prop} (hR : Respected R) {o : Operator}
    {idle : Condition} {cs ds : List Condition} (h : Related R (.group .and []) idle)
    (k : Related R (.group o cs) (.group o ds)) (ho : o = .or → ∀ b, R b true) :
    Related R (.group o cs) (.group o (idle :: ds)) := by
  have leaves : leavesOf cs = leavesOf ds := k.leaves
  have none : idle.leaves = [] := h.leaves.symm
  refine ⟨by simp only [Condition.leaves, leavesOf, none, leaves, List.nil_append],
    fun truth n => ?_⟩
  have holds : idle.holds truth n = true := hR.top (h.holds truth n)
  have hrest := k.holds truth n
  simp only [Condition.holds, truths, none, holds, List.length_nil, Nat.add_zero] at hrest ⊢
  cases o with
  | and => simpa using hrest
  | or => exact ho rfl _

mutual
/-- If truth is related to all that may stand in for it, or nothing that says nothing stands under
`$or`, then what the terms say is related to what is written. -/
theorem related_terms {R : Bool → Bool → Prop} (hR : Respected R) {reading : Reading} (v : Json)
    {ts : List Condition} (h : terms reading v = .ok ts)
    (hv : (∀ b, R b true) ∨ offersIdle v = false) (o : Operator)
    (ho : o = .or → (∀ b, R b true) ∨ hasIdle v = false) :
    Related R (.group o ts) (.group o (parts reading v)) := by
  cases v with
  | null =>
    cases h
    exact .refl hR _
  | object fields => exact .group hR o (related_entryTerms hR fields h hv)
  | array items => exact related_itemTerms hR items h hv o ho
  | bool | number | string => contradiction

theorem related_entryTerms {R : Bool → Bool → Prop} (hR : Respected R) {reading : Reading}
    (fields : List (String × Json)) {ts : List Condition}
    (h : entryTerms reading fields = .ok ts)
    (hv : (∀ b, R b true) ∨ entriesOfferIdle fields = false) :
    List.Forall₂ (Related R) ts (entryTrees reading fields) := by
  cases fields with
  | nil =>
    cases h
    exact .nil
  | cons e rest =>
    obtain ⟨key, v⟩ := e
    obtain ⟨c, cs, rfl, hcs, hc⟩ := entryTerms_cons h
    have hrest : (∀ b, R b true) ∨ entriesOfferIdle rest = false := by
      refine hv.imp_right fun hv => ?_
      rw [entriesOfferIdle, Bool.or_eq_false_iff] at hv
      exact hv.2
    obtain ⟨o, children, ho, hts, rfl⟩ | ⟨ho, hc⟩ := hc
    · have hfirst : (∀ b, R b true) ∨
          (decide (o = .or) && hasIdle v || offersIdle v) = false := by
        refine hv.imp_right fun hv => ?_
        simp only [entriesOfferIdle, ho, Bool.or_eq_false_iff] at hv ⊢
        exact hv.1
      have htree : entryTrees reading ((key, v) :: rest) =
          .group o (parts reading v) :: entryTrees reading rest := by
        simp only [entryTrees, ho]
      rw [htree]
      refine .cons (related_terms hR v hts ?_ o ?_) (related_entryTerms hR rest hcs hrest)
      · exact hfirst.imp_right fun hf => (Bool.or_eq_false_iff.mp hf).2
      · rintro rfl
        exact hfirst.imp_right fun hf => by simpa using (Bool.or_eq_false_iff.mp hf).1
    · have htree : entryTrees reading ((key, v) :: rest) =
          entryTree reading key v :: entryTrees reading rest := by
        simp only [entryTrees, ho]
      rw [htree]
      exact .cons (.of_eq hR (related_entryTerm hc)) (related_entryTerms hR rest hcs hrest)

theorem related_itemTerms {R : Bool → Bool → Prop} (hR : Respected R) {reading : Reading}
    (items : List Json) {ts : List Condition} (h : itemTerms reading items = .ok ts)
    (hv : (∀ b, R b true) ∨ itemsOfferIdle items = false) (o : Operator)
    (ho : o = .or → (∀ b, R b true) ∨ items.any isIdle = false) :
    Related R (.group o ts) (.group o (itemTrees reading items)) := by
  cases items with
  | nil =>
    cases h
    exact .refl hR _
  | cons v rest =>
    obtain ⟨ts, more, hts, hmore, rfl⟩ := itemTerms_cons h
    simp only [itemsOfferIdle, Bool.or_eq_false_iff] at hv
    simp only [List.any_cons, Bool.or_eq_false_iff] at ho
    have first := related_terms hR v hts (hv.imp_right (·.1)) .and (by simp)
    have others := related_itemTerms hR rest hmore (hv.imp_right (·.2)) o
      fun h => (ho h).imp_right (·.2)
    cases hc : conjunction ts with
    | some c => exact .cons hR ((related_conjunction hc).eq_trans first) others
    | none =>
      -- the element has been dropped, and as it is written it holds
      obtain rfl := conjunction_eq_none.mp hc
      refine related_cons_idle hR first others fun hor => (ho hor).resolve_right fun hidle => ?_
      rw [isIdle_of_terms v hts] at hidle
      exact absurd hidle.1 (by simp)
end

/-- The terms of a filter make its comparisons in their order, and when they hold together, the
filter holds as it is written. They mean the same unless a list under `$or` has an element that
says nothing. -/
theorem parse_means_asWritten {filter : Json} {terms : List Condition}
    (h : parse filter = .ok terms) :
    leavesOf terms = (asWritten filter).leaves ∧
      (∀ truth, allHold truth terms = true → (asWritten filter).holds truth 0 = true) ∧
      (offersIdle filter = false →
        ∀ truth, allHold truth terms = (asWritten filter).holds truth 0) := by
  have below := related_terms respected_implies filter h (.inl fun _ _ => rfl) .and (by simp)
  refine ⟨below.leaves, fun truth => below.holds truth 0, fun hidle truth => ?_⟩
  exact (related_terms respected_eq filter h (.inr hidle) .and (by simp)).holds truth 0

/-- An element that says nothing is dropped from a list of elements that hold together, and the
comparers of a column are joined as `$or` says. -/
theorem parse_means_asWritten_nested :
    let filter : Json := .object [
      ("$or", .array [
        .object [("age", .object [("$or", .object [("$lt", .ofInt 18), ("$gt", .ofInt 65)])])],
        .array [.object [], .object [("$gte", .object [("a", .ofInt 1), ("b", .ofInt 2)])]]]),
      ("$and", .object [])]
    let terms : List Condition := [
      .group .or [
        .group .or [.leaf "age" .lt (.value (.ofInt 18)), .leaf "age" .gt (.value (.ofInt 65))],
        .group .and [.leaf "a" .gte (.value (.ofInt 1)), .leaf "b" .gte (.value (.ofInt 2))]],
      .group .and []]
    parse filter = .ok terms ∧ offersIdle filter = false ∧
      ∀ truth, (asWritten filter).holds truth 0 =
        (truth 0 || truth 1 || (truth 2 && truth 3)) := by
  intro filter terms
  have parsed : parse filter = .ok terms := rfl
  have decided : offersIdle filter = false := by decide
  refine ⟨parsed, decided, fun truth => ?_⟩
  rw [← (parse_means_asWritten parsed).2.2 decided truth]
  simp [terms, allHold, truths, holds, leaves, leavesOf, Bool.or_assoc]

/-- As it is written this filter holds of every row, but its terms hold of some rows only. -/
theorem idle_choice_dropped :
    let filter : Json := .object [
      ("$or", .array [.object [("id", .ofInt 1)], .object []])]
    let terms : List Condition := [.group .or [.leaf "id" .eq (.value (.ofInt 1))]]
    parse filter = .ok terms ∧ (∀ truth, (asWritten filter).holds truth 0 = true) ∧
      allHold (fun _ => false) terms = false := by
  intro filter terms
  have written : asWritten filter = .group .and [.group .or [
      .group .and [.leaf "id" .eq (.value (.ofInt 1))], .group .and []]] := rfl
  refine ⟨rfl, fun truth => ?_, rfl⟩
  simp [written, holds, truths]

end DataAccess.Condition
