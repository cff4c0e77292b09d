import DataAccess.Sql.Compiler

/-! SQL as text with holes for values. Numbers are given to the holes when the text is put out. -/
namespace DataAccess

inductive Piece where
  | text (s : String)
  | hole (v : Json)
  deriving DecidableEq

abbrev Sql := List Piece

namespace Sql

def params (s : Sql) : List Json :=
  s.filterMap fun p =>
    match p with
    | .text _ => none
    | .hole v => some v

def placeholder (n : Nat) : List Char := '$' :: Nat.toDigits 10 n

/-- The text when the next placeholder has number `n`. -/
def charsFrom (n : Nat) : Sql → List Char
  | [] => []
  | .text s :: rest => s.toList ++ charsFrom n rest
  | .hole _ :: rest => placeholder n ++ charsFrom (n + 1) rest

def compiled (s : Sql) : Compiled := ⟨String.ofList (charsFrom 1 s), s.params⟩

def text (s : String) : Sql := [.text s]

def hole (v : Json) : Sql := [.hole v]

def joined (separator : String) : List Sql → Sql
  | [] => []
  | [part] => part
  | part :: rest => part ++ text separator ++ joined separator rest

def listed (names : List String) : Sql := joined ", " (names.map text)

@[simp] theorem params_nil : params [] = [] := rfl

@[simp] theorem params_text (s : String) (rest : Sql) :
    params (.text s :: rest) = params rest := rfl

@[simp] theorem params_hole (v : Json) (rest : Sql) :
    params (.hole v :: rest) = v :: params rest := rfl

theorem params_append (s t : Sql) : (s ++ t).params = s.params ++ t.params := by
  simp [params]

theorem charsFrom_append (n : Nat) (s t : Sql) :
    charsFrom n (s ++ t) = charsFrom n s ++ charsFrom (n + s.params.length) t := by
  induction s generalizing n with
  | nil => rfl
  | cons p s ih =>
    cases p with
    | text a => simp [charsFrom, ih]
    | hole v => simp [charsFrom, ih, Nat.add_assoc, Nat.add_comm 1]

def textFrom (n : Nat) (s : Sql) : String := String.ofList (charsFrom n s)

theorem compiled_eq (s : Sql) : s.compiled = ⟨s.textFrom 1, s.params⟩ := rfl

@[simp] theorem textFrom_nil (n : Nat) : textFrom n [] = "" := rfl

@[simp] theorem textFrom_text (n : Nat) (s : String) (rest : Sql) :
    textFrom n (.text s :: rest) = s ++ textFrom n rest := by
  rw [textFrom, charsFrom, String.ofList_append, String.ofList_toList, textFrom]

@[simp] theorem textFrom_hole (n : Nat) (v : Json) (rest : Sql) :
    textFrom n (.hole v :: rest) = "$" ++ toString n ++ textFrom (n + 1) rest := by
  rw [textFrom, charsFrom, String.ofList_append, placeholder, Nat.toString_eq_ofList_toDigits,
    ← List.singleton_append, String.ofList_append]
  rfl

theorem textFrom_append (n : Nat) (s t : Sql) :
    textFrom n (s ++ t) = textFrom n s ++ textFrom (n + s.params.length) t := by
  rw [textFrom, charsFrom_append, String.ofList_append]
  rfl

/-- Without holes the numbers of placeholders do not matter. -/
theorem textFrom_of_params_eq_nil {s : Sql} (h : s.params = []) (n m : Nat) :
    textFrom n s = textFrom m s := by
  induction s with
  | nil => rfl
  | cons p s ih =>
    cases p with
    | text t => rw [textFrom_text, textFrom_text, ih h]
    | hole v => exact absurd h (List.cons_ne_nil v _)

theorem textFrom_listed (n : Nat) (names : List String) :
    textFrom n (listed names) = ", ".intercalate names := by
  induction names with
  | nil => rfl
  | cons name names ih =>
    cases names with
    | nil => simp [listed, joined, text]
    | cons other names =>
      rw [String.intercalate_cons_cons, ← ih]
      simp [listed, joined, text, String.append_assoc]

theorem params_listed (names : List String) : (listed names).params = [] := by
  induction names with
  | nil => rfl
  | cons name names ih =>
    cases names with
    | nil => rfl
    | cons other names => exact ih

end Sql
end DataAccess
