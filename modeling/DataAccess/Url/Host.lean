import DataAccess.Number.Power
import DataAccess.Text.Cut
import DataAccess.Url.Percent

/-! What may stand as the host of a URL: a numeric address or a name. -/
namespace DataAccess.Url
open Text

/-- A number up to 255 without leading zeros. -/
def isOctet (s : List Char) : Bool :=
  s.all Char.isDigit && !s.isEmpty && (s.length = 1 || s.head? ≠ some '0') &&
    Digits.inBase 10 s < 256

/-- Four numbers between points. -/
def isQuad (s : List Char) : Bool :=
  let ps := parts '.' s
  ps.length = 4 && ps.all isOctet

/-- Sixteen bits: up to four hexadecimal digits. -/
def isGroup (s : List Char) : Bool := !s.isEmpty && s.length ≤ 4 && s.all (Digits.isIn 16)

/-- How many groups there are; the last two may be written as a quad. -/
def groups? : List (List Char) → Option Nat
  | [] => some 0
  | [p] => if isGroup p then some 1 else if isQuad p then some 2 else none
  | p :: ps => if isGroup p then (groups? ps).map (· + 1) else none

/-- The texts around the first double colon. -/
def aroundGap : List Char → Option (List Char × List Char)
  | [] => none
  | ':' :: ':' :: rest => some ([], rest)
  | c :: rest => (aroundGap rest).map fun p => (c :: p.1, p.2)

def groupTexts (s : List Char) : List (List Char) := if s.isEmpty then [] else parts ':' s

/-- Eight groups between colons; a double colon stands for at least one group of zeros. -/
def isIpv6 (s : List Char) : Bool :=
  match aroundGap s with
  | none => groups? (parts ':' s) == some 8
  | some (before, after) =>
    let left := groupTexts before
    left.all isGroup && (groups? (groupTexts after)).any fun n => left.length + n < 8

def isIpAddress (s : List Char) : Bool := isQuad s || isIpv6 s

/-- A number in decimal, octal after a zero, or hexadecimal after `0x`. -/
def number? : List Char → Option Nat
  | [] => none
  | '0' :: 'x' :: ds | '0' :: 'X' :: ds =>
    if ds.all (Digits.isIn 16) then some (Digits.inBase 16 ds) else none
  | '0' :: c :: ds =>
    if (c :: ds).all (Digits.isIn 8) then some (Digits.inBase 8 (c :: ds)) else none
  | ds => if ds.all Char.isDigit then some (Digits.inBase 10 ds) else none

/-- Parts of a name; a point at its end makes no part. -/
def labels (s : List Char) : List (List Char) :=
  let ps := parts '.' s
  if ps.getLast? = some [] then ps.dropLast else ps

/-- The name ends like a numeric address, and so has to be one. -/
def endsInNumber (s : List Char) : Bool :=
  match (labels s).getLast? with
  | none => false
  | some p => (!p.isEmpty && p.all Char.isDigit) || (number? p).isSome

/-- Up to four numbers that fill 32 bits; all but the last are single bytes. -/
def isIpv4 (s : List Char) : Bool :=
  match (labels s).mapM number? with
  | none => false
  | some ns =>
    ns.length ≤ 4 && ns.dropLast.all (· < 256) &&
      ns.getLast?.any (· < pow2 (40 - 8 * ns.length))

/-- Characters with a meaning of their own, which no name of a host has. -/
def isReserved (c : Char) : Bool :=
  [' ', '#', '/', ':', '<', '>', '?', '@', '[', '\\', ']', '^', '|', Char.ofNat 0].contains c

/-- The host of a web address; what is percent-encoded in a name counts as written plainly. -/
def isWebHost (s : List Char) : Bool :=
  match decoded? s with
  | none => false
  | some name =>
    let isPlain := fun (c : Char) => 32 < c.toNat && c.toNat ≠ 127 && c ≠ '%' && !isReserved c
    !name.isEmpty && name.all isPlain && (!endsInNumber name || isIpv4 name)

/-- A host is an address of version six in brackets, or a name. -/
def isHost (web : Bool) (s : List Char) : Bool :=
  match s with
  | '[' :: rest => rest.getLast? = some ']' && isIpv6 rest.dropLast
  | s => if web then isWebHost s else s.all fun c => !isReserved c

end DataAccess.Url
