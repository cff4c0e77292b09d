/-! Cutting a text at a separator. -/
namespace DataAccess.Text

/-- The parts around the first `c`. -/
def cutFirst (c : Char) : List Char → Option (List Char × List Char)
  | [] => none
  | d :: rest => if d = c then some ([], rest) else (cutFirst c rest).map fun p => (d :: p.1, p.2)

/-- The parts around the last `c`. -/
def cutLast (c : Char) : List Char → Option (List Char × List Char)
  | [] => none
  | d :: rest =>
    match cutLast c rest with
    | some p => some (d :: p.1, p.2)
    | none => if d = c then some ([], rest) else none

/-- Adds a character to the first part. -/
def grow (c : Char) : List (List Char) → List (List Char)
  | [] => [[c]]
  | part :: parts => (c :: part) :: parts

/-- The parts between the separators, one more than there are separators. -/
def parts (c : Char) : List Char → List (List Char)
  | [] => [[]]
  | d :: rest => if d = c then [] :: parts c rest else grow d (parts c rest)

/-- The parts between the arrows `->`. -/
def arrowParts : List Char → List (List Char)
  | [] => [[]]
  | '-' :: '>' :: rest => [] :: arrowParts rest
  | c :: rest => grow c (arrowParts rest)

def contains (fragment : List Char) : List Char → Bool
  | [] => fragment.isEmpty
  | c :: rest => fragment.isPrefixOf (c :: rest) || contains fragment rest

/-- Text without its mark, if it begins with the mark. -/
def unmarked (c : Char) : List Char → Option (List Char)
  | [] => none
  | d :: rest => if d = c then some rest else none

def joined (separator : List Char) : List (List Char) → List Char
  | [] => []
  | [part] => part
  | part :: rest => part ++ separator ++ joined separator rest

theorem parts_ne_nil (c : Char) (s : List Char) : parts c s ≠ [] := by
  cases s with
  | nil => simp [parts]
  | cons d rest =>
    by_cases h : d = c
    · simp [parts, h]
    · simp only [parts, h, if_false]
      cases parts c rest <;> simp [grow]

end DataAccess.Text
