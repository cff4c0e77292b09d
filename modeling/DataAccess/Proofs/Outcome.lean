/-! Outcomes of computations that may fail. -/
namespace DataAccess
variable {ε α β : Type}

/-- Two steps succeed if each of them does. -/
theorem bind_eq_ok {first : Except ε α} {next : α → Except ε β} {result : β} :
    first >>= next = .ok result ↔ ∃ a, first = .ok a ∧ next a = .ok result := by
  constructor
  · intro h
    cases first with
    | error e => contradiction
    | ok a => exact ⟨a, rfl, h⟩
  · rintro ⟨a, rfl, h⟩
    exact h

/-- A result that is only made use of does not fail in the process. -/
theorem bind_pure_eq_error {first : Except ε α} {f : α → β} {e : ε} :
    (first >>= fun a => pure (f a)) = .error e ↔ first = .error e := by
  cases first with
  | error other => exact ⟨fun h => congrArg Except.error (Except.error.inj h), fun h => h ▸ rfl⟩
  | ok a => exact ⟨fun h => (nomatch h), fun h => (nomatch h)⟩

theorem map_eq_ok {outcome : Except ε α} {f : α → β} {result : β} :
    outcome.map f = .ok result ↔ ∃ a, outcome = .ok a ∧ f a = result := by
  constructor
  · intro h
    cases outcome with
    | error e => contradiction
    | ok a => exact ⟨a, rfl, Except.ok.inj h⟩
  · rintro ⟨a, rfl, rfl⟩
    rfl

theorem map_eq_error {outcome : Except ε α} {f : α → β} {e : ε} :
    outcome.map f = .error e ↔ outcome = .error e := by
  cases outcome with
  | error other => exact ⟨fun h => congrArg Except.error (Except.error.inj h), fun h => h ▸ rfl⟩
  | ok a => exact ⟨fun h => (nomatch h), fun h => (nomatch h)⟩

/-- An outcome can be tried out where errors cannot be compared. -/
theorem eq_ok_of_toOption {x : Except ε α} {a : α} (h : x.toOption = some a) : x = .ok a := by
  cases x with
  | error e => contradiction
  | ok b =>
    cases h
    rfl

def OnlyFails (P : ε → Prop) (x : Except ε α) : Prop := ∀ e, x = .error e → P e

namespace OnlyFails
variable {P : ε → Prop}

theorem ok (a : α) : OnlyFails P (.ok a) := fun _ h => by cases h

theorem error {e : ε} (h : P e) : OnlyFails (α := α) P (.error e) := by
  rintro f ⟨⟩
  exact h

theorem bind {x : Except ε α} {f : α → Except ε β} (h : OnlyFails P x)
    (hf : ∀ a, OnlyFails P (f a)) : OnlyFails P (x >>= f) := by
  cases x with
  | error e => exact error (h e rfl)
  | ok a => exact hf a

theorem map {x : Except ε α} {f : α → β} (h : OnlyFails P x) : OnlyFails P (x.map f) := by
  cases x with
  | error e => exact error (h e rfl)
  | ok a => exact ok (f a)

end OnlyFails

/-- Two outcomes fail in the same way, or give results that are related. -/
def Agree (r : α → α → Prop) : Except ε α → Except ε α → Prop
  | .ok a, .ok b => r a b
  | .error e, .error f => e = f
  | _, _ => False

variable {r : α → α → Prop} {q : β → β → Prop}

theorem Agree.ok {a b : α} (h : r a b) : Agree (ε := ε) r (.ok a) (.ok b) := h

theorem Agree.error (e : ε) : Agree r (.error e) (.error e) := rfl

theorem Agree.refl (hr : ∀ a, r a a) (x : Except ε α) : Agree r x x := by
  cases x with
  | error e => rfl
  | ok a => exact hr a

theorem Agree.bind {x y : Except ε α} {f g : α → Except ε β} (h : Agree r x y)
    (hf : ∀ a b, r a b → Agree q (f a) (g b)) : Agree q (x >>= f) (y >>= g) := by
  cases x with
  | error e =>
    cases y with
    | error e' => exact h
    | ok b => exact h.elim
  | ok a =>
    cases y with
    | error e' => exact h.elim
    | ok b => exact hf a b h

theorem Agree.map {x y : Except ε α} {f : α → β} (h : Agree r x y)
    (hf : ∀ a b, r a b → q (f a) (f b)) : Agree q (x.map f) (y.map f) := by
  cases x <;> cases y <;> first | exact h | exact h.elim | exact hf _ _ h

/-- Outcomes that agree look the same to whom sees no more than what the relation keeps. -/
theorem Agree.map_eq {x y : Except ε α} {f : α → β} (h : Agree r x y)
    (hf : ∀ a b, r a b → f a = f b) : x.map f = y.map f := by
  cases x with
  | error e =>
    cases y with
    | error e' => exact congrArg Except.error h
    | ok b => exact h.elim
  | ok a =>
    cases y with
    | error e' => exact h.elim
    | ok b => exact congrArg Except.ok (hf a b h)

end DataAccess
