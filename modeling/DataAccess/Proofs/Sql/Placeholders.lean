import DataAccess.Proofs.Sql.Piece
import Mathlib.Tactic.SplitIfs

/-!
The placeholders in the text of a statement. They are told apart from the rest of the text by their
dollar sign, as long as no other text has one and no digit follows a placeholder.
-/
namespace DataAccess

def Text.placeholders : List Char → List (List Char)
  | [] => []
  | c :: rest =>
    if c = '$' then rest.takeWhile Char.isDigit :: placeholders rest else placeholders rest

abbrev Text.Plain (s : List Char) : Prop := '$' ∉ s

namespace Text

theorem placeholders_append {s : List Char} (h : Plain s) (rest : List Char) :
    placeholders (s ++ rest) = placeholders rest := by
  induction s with
  | nil => rfl
  | cons c s ih =>
    simp only [Plain, List.mem_cons, not_or] at h
    rw [List.cons_append, placeholders, if_neg (Ne.symm h.1), ih h.2]

theorem plain_append {s t : List Char} (hs : Plain s) (ht : Plain t) : Plain (s ++ t) := by
  simp [Plain, hs, ht]

theorem plain_concat {s t : String} (hs : Plain s.toList) (ht : Plain t.toList) :
    Plain (s ++ t).toList := by
  rw [String.toList_append]
  exact plain_append hs ht

theorem plain_digits (n : Nat) : Plain (Nat.toDigits 10 n) := by
  intro h
  have hd := Nat.isDigit_of_mem_toDigits (by decide) (by decide) h
  simp at hd

/-- A placeholder is read back if no digit follows. -/
theorem placeholders_placeholder (n : Nat) {rest : List Char}
    (h : ∀ c ∈ rest.head?, c.isDigit = false) :
    placeholders (Sql.placeholder n ++ rest) = Nat.toDigits 10 n :: placeholders rest := by
  have hall : ∀ c ∈ Nat.toDigits 10 n, c.isDigit = true := fun c hc =>
    Nat.isDigit_of_mem_toDigits (by decide) (by decide) hc
  have hrest : rest.takeWhile Char.isDigit = [] := by
    cases rest with
    | nil => rfl
    | cons c rest => simp [h c rfl]
  rw [Sql.placeholder, List.cons_append, placeholders, if_pos rfl,
    placeholders_append (plain_digits n), List.takeWhile_append_of_pos hall, hrest, List.append_nil]

end Text

namespace Sql
open Text

/-- The text does not begin with a digit, so it may follow a placeholder. -/
def Opens (s : Sql) : Prop := ∀ n, ∀ c ∈ (charsFrom n s).head?, c.isDigit = false

/-- The text has no dollar sign, and no digit follows a hole. -/
def Neat : Sql → Prop
  | [] => True
  | .text s :: rest => Plain s.toList ∧ Neat rest
  | .hole _ :: rest => Opens rest ∧ Neat rest

/-- The placeholders are those of the parameters, in order. -/
theorem placeholders_charsFrom {s : Sql} (h : s.Neat) (n : Nat) :
    placeholders (charsFrom n s) = (List.range' n s.params.length).map (Nat.toDigits 10) := by
  induction s generalizing n with
  | nil => rfl
  | cons p s ih =>
    cases p with
    | text a =>
      obtain ⟨ha, hs⟩ := h
      rw [charsFrom, placeholders_append ha, ih hs, params_text]
    | hole v =>
      obtain ⟨ho, hs⟩ := h
      -- the number ends where the rest begins, since the rest does not begin with a digit
      rw [charsFrom, placeholders_placeholder n (ho _), ih hs, params_hole, List.length_cons,
        List.range'_succ, List.map_cons]

theorem opens_nil : Opens [] := by
  intro n c hc
  simp [charsFrom] at hc

theorem opens_text {s : String} {c : Char} (hs : s.toList.head? = some c)
    (hc : c.isDigit = false) (rest : Sql) : Opens (.text s :: rest) := by
  intro n d hd
  rw [charsFrom, List.head?_append, hs] at hd
  cases hd
  exact hc

theorem Opens.append {s t : Sql} (hs : s.Opens) (ht : t.Opens) : (s ++ t).Opens := by
  intro n c hc
  rw [charsFrom_append] at hc
  cases hn : charsFrom n s with
  | nil =>
    rw [hn, List.nil_append] at hc
    exact ht _ c hc
  | cons d ds =>
    rw [hn, List.cons_append] at hc
    exact hs n c (by rwa [hn])

theorem Neat.append {s t : Sql} (hs : s.Neat) (ht : t.Neat) (ho : t.Opens) : (s ++ t).Neat := by
  induction s with
  | nil => exact ht
  | cons p s ih =>
    cases p with
    | text a => exact ⟨hs.1, ih hs.2⟩
    | hole v => exact ⟨hs.1.append ho, ih hs.2⟩

/-- The holes are for these values, in this order, and their placeholders can be read back. -/
structure Binds (s : Sql) (values : List Json) : Prop where
  neat : s.Neat
  params : s.params = values

theorem Binds.nil : Binds [] [] := ⟨trivial, rfl⟩

theorem Binds.text {s : String} {rest : Sql} {values : List Json} (hs : Plain s.toList)
    (h : rest.Binds values) : Binds (.text s :: rest) values := ⟨⟨hs, h.neat⟩, h.params⟩

theorem Binds.hole (v : Json) {rest : Sql} {values : List Json} (ho : rest.Opens)
    (h : rest.Binds values) : Binds (.hole v :: rest) (v :: values) :=
  ⟨⟨ho, h.neat⟩, congrArg (v :: ·) h.params⟩

theorem Binds.append {s t : Sql} {values more : List Json} (hs : s.Binds values)
    (ht : t.Binds more) (ho : t.Opens) : (s ++ t).Binds (values ++ more) :=
  ⟨hs.neat.append ht.neat ho, by rw [params_append, hs.params, ht.params]⟩

/-- What binds nothing may follow. -/
theorem Binds.closed {s t : Sql} {values : List Json} (hs : s.Binds values) (ht : t.Binds [])
    (ho : t.Opens) : (s ++ t).Binds values := by
  simpa only [List.append_nil] using hs.append ht ho

/-- Parts bind their values one after the other. -/
theorem Binds.joined {α : Type} {separator : String} (hs : Plain separator.toList)
    (ho : ∀ rest, Opens (.text separator :: rest)) (parts : List α) {f : α → Sql}
    {values : α → List Json} (h : ∀ a ∈ parts, (f a).Binds (values a)) :
    (Sql.joined separator (parts.map f)).Binds (parts.flatMap values) := by
  induction parts with
  | nil => exact .nil
  | cons a parts ih =>
    have ha := h a List.mem_cons_self
    have hrest := ih fun b hb => h b (List.mem_cons_of_mem a hb)
    cases parts with
    | nil => simpa [Sql.joined] using ha
    | cons b parts =>
      have hb := ha.append (Binds.text hs hrest) (ho _)
      rw [List.flatMap_cons]
      simpa only [List.map_cons, Sql.joined, Sql.text, List.append_assoc, List.singleton_append]
        using hb

theorem Binds.commas {α : Type} (parts : List α) {f : α → Sql} {values : α → List Json}
    (h : ∀ a ∈ parts, (f a).Binds (values a)) :
    (Sql.joined ", " (parts.map f)).Binds (parts.flatMap values) :=
  joined (by decide) (fun _ => opens_text (s := ", ") rfl rfl _) parts h

end Sql
end DataAccess
