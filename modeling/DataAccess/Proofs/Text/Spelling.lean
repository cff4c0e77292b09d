import DataAccess.Proofs.Text.Casing
import Mathlib.Data.List.TakeWhile

/-!
Names of the conventions that set words apart by a separator. A name is left as it is by such a
convention if its words are spelled and joined in its way, and what the convention makes of an ASCII
name is of that kind. The other two conventions do not have this property: a word of one letter runs
into the next one.
-/
namespace DataAccess.Casing
open Text

def separator? : Casing → Option Char
  | snake | constant => some '_'
  | kebab => some '-'
  | camel | pascal => none

def form : Casing → List Char → List Char
  | constant => uppercase
  | _ => lowercase

variable {casing : Casing} {separator : Char}

theorem assemble_separated (h : casing.separator? = some separator) (ws : List (List Char)) :
    assemble casing ws = joined [separator] (ws.map casing.form) := by
  cases casing <;> cases h <;> rfl

theorem separates_separator (h : casing.separator? = some separator) :
    isSeparator separator = true ∧ isLower separator = false := by
  cases casing <;> cases h <;> decide

/-- A change of case within ASCII that leaves one case only, makes no separators, and changes
nothing when it is made once more. -/
structure Levels (f : Char → Char) : Prop where
  ascii : ∀ {c : Char}, c.toNat < 128 → (f c).toNat < 128
  unseparated : ∀ {c : Char}, c.toNat < 128 → isSeparator c = false → isSeparator (f c) = false
  again : ∀ {c : Char}, c.toNat < 128 → f (f c) = f c
  one_case : (∀ {c : Char}, c.toNat < 128 → isUpper (f c) = false) ∨
    ∀ {c : Char}, c.toNat < 128 → isLower (f c) = false

theorem levels_toLower : Levels Char.toLower where
  ascii := toNat_toLower
  unseparated := forall_ascii
    (P := fun c => isSeparator c = false → isSeparator c.toLower = false) (by decide)
  again := toLower_toLower
  one_case := .inl (forall_ascii (P := fun c => isUpper c.toLower = false) (by decide))

theorem levels_toUpper : Levels Char.toUpper where
  ascii := toNat_toUpper
  unseparated := forall_ascii
    (P := fun c => isSeparator c = false → isSeparator c.toUpper = false) (by decide)
  again := forall_ascii (P := fun c => c.toUpper.toUpper = c.toUpper) (by decide)
  one_case := .inr (forall_ascii (P := fun c => isLower c.toUpper = false) (by decide))

theorem form_ascii (casing : Casing) :
    ∃ f, Levels f ∧ ∀ w, IsAscii w → casing.form w = w.map f := by
  cases casing with
  | constant => exact ⟨_, levels_toUpper, fun _ => uppercase_ascii⟩
  | snake | camel | pascal | kebab => exact ⟨_, levels_toLower, fun _ => lowercase_ascii⟩

/-- A word that is spelled as it is between separators, and is read off again there. -/
structure IsSpelledWord (casing : Casing) (w : List Char) : Prop where
  whole : IsWhole w
  spelled : casing.form w = w

/-- Any word of ASCII becomes such a word. -/
theorem isSpelledWord_form (casing : Casing) {w : List Char} (ascii : IsAscii w) (nonempty : w ≠ [])
    (unseparated : ∀ c ∈ w, isSeparator c = false) : IsSpelledWord casing (casing.form w) := by
  obtain ⟨f, levels, form_eq⟩ := form_ascii casing
  have mapped {P : Char → Prop} (h : ∀ c ∈ w, P (f c)) : ∀ c ∈ w.map f, P c :=
    List.forall_mem_map.mpr h
  have again : (w.map f).map f = w.map f := by
    rw [List.map_map]
    exact List.map_congr_left fun c hc => levels.again (ascii c hc)
  rw [form_eq w ascii]
  refine ⟨⟨by simpa using nonempty, mapped fun c hc => ?_, ?_⟩, ?_⟩
  · exact levels.unseparated (ascii c hc) (unseparated c hc)
  · rcases levels.one_case with small | capital
    · exact .inl (mapped fun c hc => small (ascii c hc))
    · exact .inr (mapped fun c hc => capital (ascii c hc))
  · rw [form_eq _ (mapped fun c hc => levels.ascii (ascii c hc)), again]

/-- Leading underscores, and then words in the spelling of the convention between its separators. -/
def IsSpelled (casing : Casing) (separator : Char) (s : List Char) : Prop :=
  ∃ marks ws, s = marks ++ joined [separator] ws ∧ (∀ c ∈ marks, c = '_') ∧
    ∀ w ∈ ws, IsSpelledWord casing w

theorem isSpelled_convertChars (h : casing.separator? = some separator) {s : List Char}
    (ascii : IsAscii s) : IsSpelled casing separator (casing.convertChars s) := by
  refine ⟨s.takeWhile (· = '_'), (words (s.dropWhile (· = '_'))).map casing.form, ?_, ?_, ?_⟩
  · rw [convertChars, assemble_separated h]
  · exact fun c hc => by simpa using List.mem_takeWhile_imp hc
  · intro v hv
    obtain ⟨w, hw, rfl⟩ := List.mem_map.mp hv
    have of_text : ∀ c ∈ w, c ∈ s := fun c hc =>
      (List.dropWhile_sublist _).subset (mem_of_mem_words hw hc)
    exact isSpelledWord_form casing (fun c hc => ascii c (of_text c hc)) (ne_nil_of_mem_words hw)
      (unseparated_of_mem_words hw)

theorem convertChars_of_isSpelled (h : casing.separator? = some separator) {s : List Char}
    (spelled : IsSpelled casing separator s) : casing.convertChars s = s := by
  obtain ⟨marks, ws, rfl, only, all⟩ := spelled
  obtain ⟨separates, small⟩ := separates_separator h
  have read : words (joined [separator] ws) = ws :=
    words_joined separates small fun w hw => (all w hw).whole
  have same : ws.map casing.form = ws := by
    rw [List.map_congr_left fun w hw => (all w hw).spelled, List.map_id']
  have first : (joined [separator] ws).head? ≠ some '_' := by
    cases ws with
    | nil => exact nofun
    | cons w ws =>
      have whole := (all w List.mem_cons_self).whole
      rw [head?_joined whole.ne_nil]
      exact whole.head?_ne
  rw [convertChars_marked only first, assemble_separated h, read, same]

/-- Under the conventions with separators, what a name of ASCII was converted to is not changed when
it is converted again; a storage name may thus be given in place of the name it was made of. -/
theorem convert_again {casing : Casing} (h : casing ∈ [snake, kebab, constant]) {s : String}
    (ascii : IsAscii s.toList) :
    casing.convert (casing.convert s) = casing.convert s ∧
      ∀ naming : Naming, naming.db = casing → ∀ name, naming.toDb s = name →
        naming.toDb name = name := by
  have separated : ∃ separator, casing.separator? = some separator := by
    simp only [List.mem_cons, List.not_mem_nil, or_false] at h
    rcases h with rfl | rfl | rfl <;> exact ⟨_, rfl⟩
  obtain ⟨separator, hs⟩ := separated
  have again : casing.convert (casing.convert s) = casing.convert s := by
    rw [convert, convert, String.toList_ofList,
      convertChars_of_isSpelled hs (isSpelled_convertChars hs ascii)]
  refine ⟨again, ?_⟩
  rintro naming rfl name rfl
  exact again

/-- Acronyms, digits and signs are loud and stay as they are. -/
theorem convert_again_acronym :
    let s := "__HTTPServer2 Go--x_.9Ab"
    let storage := "__HTTP_SERVER2_GO_X_.9AB"
    let naming : Naming := { db := constant }
    constant ∈ [snake, kebab, constant] ∧ IsAscii s.toList ∧ constant.convert s = storage ∧
      constant.convert storage = storage ∧ naming.toDb storage = storage := by
  intro s storage naming
  have separates : constant ∈ [snake, kebab, constant] := by decide
  have ascii : IsAscii s.toList := by simp [s, IsAscii]
  have converted : constant.convert s = storage := by decide
  obtain ⟨again, stored⟩ := convert_again separates ascii
  rw [converted] at again
  exact ⟨separates, ascii, converted, again, stored naming rfl storage converted⟩

/-- Without separators, words of one letter run into each other. -/
example : camel.convert "a_b_c" = "aBC" ∧ camel.convert "aBC" = "aBc" := by decide

end DataAccess.Casing
