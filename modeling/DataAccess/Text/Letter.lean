import DataAccess.Text.LetterTable

/-! Case and white space of single characters, and the lower-case form of a word. -/
namespace DataAccess.Text

def Stretch.covers (s : Stretch) (n : Nat) : Bool :=
  s.1 ≤ n && n ≤ s.2.1 && (n - s.1) % s.2.2 == 0

def covered (stretches : List Stretch) (n : Nat) : Bool := stretches.any fun s => Stretch.covers s n

def isUpper (c : Char) : Bool :=
  if c.toNat < 128 then c.isUpper else covered upperStretches c.toNat

def isLower (c : Char) : Bool :=
  if c.toNat < 128 then c.isLower else covered lowerStretches c.toNat

/-- White space in the sense of Unicode. -/
def isBlank (c : Char) : Bool :=
  if c.toNat < 128 then c.toNat == 32 || (9 ≤ c.toNat && c.toNat ≤ 13)
  else covered blankStretches c.toNat

def isCased (c : Char) : Bool :=
  if c.toNat < 128 then c.isAlpha else covered casedStretches c.toNat

/-- Marks that do not end a word for the rule of the final sigma. -/
def isIgnorable (c : Char) : Bool :=
  if c.toNat < 128 then c == '\x27' || c == '.' || c == ':' || c == '^' || c == '\x60'
  else covered ignorableStretches c.toNat

def shifted (shifts : List Shift) (n : Nat) : Nat :=
  match shifts.find? fun s => Stretch.covers (s.1, s.2.1, s.2.2.1) n with
  | some s => s.2.2.2 + (n - s.1)
  | none => n

def recased (spellings : List (Nat × List Nat)) (shifts : List Shift) (c : Char) : List Char :=
  match spellings.lookup c.toNat with
  | some codes => codes.map Char.ofNat
  | none => [Char.ofNat (shifted shifts c.toNat)]

def lower (c : Char) : List Char :=
  if c.toNat < 128 then [c.toLower] else recased lowerSpellings lowerShifts c

def upper (c : Char) : List Char :=
  if c.toNat < 128 then [c.toUpper] else recased upperSpellings upperShifts c

/-- The nearest character that is not ignorable has a case. -/
def meetsCased (s : List Char) : Bool := (s.dropWhile isIgnorable).head?.any isCased

/-- A capital sigma that ends a word takes its final form; `before` is read backwards. -/
def lowerFrom (before : List Char) : List Char → List Char
  | [] => []
  | c :: rest =>
    (if c = 'Σ' then [if meetsCased before && !meetsCased rest then 'ς' else 'σ'] else lower c) ++
      lowerFrom (c :: before) rest

def lowercase (s : List Char) : List Char := lowerFrom [] s

def uppercase (s : List Char) : List Char := s.flatMap upper

def trimmed (s : List Char) : List Char :=
  ((s.dropWhile isBlank).reverse.dropWhile isBlank).reverse

end DataAccess.Text
