import DataAccess.Url.Host

/-!
Taking a URL apart. Schemes of the web have hosts of their own kind, and take a backslash for a
slash; `file` has no port and no user.
-/
namespace DataAccess

structure Url where
  scheme : List Char
  user : List Char := []
  password : List Char := []
  host : List Char := []
  /-- The parts of the path, or the one text that is not divided. -/
  path : List (List Char) := []
  query : List Char := []
  deriving DecidableEq, Repr

namespace Url
open Text

inductive Kind where
  | web | file | other
  deriving DecidableEq

def Kind.ofScheme (scheme : List Char) : Kind :=
  match String.ofList scheme with
  | "http" | "https" | "ws" | "wss" | "ftp" => .web
  | "file" => .file
  | _ => .other

def Kind.isSlash (k : Kind) (c : Char) : Bool := c = '/' || (c = '\\' && k ≠ .other)

/-- The path, or the authority before it, ends here. -/
def Kind.isEnd (k : Kind) (c : Char) : Bool := k.isSlash c || c = '?' || c = '#'

def isSchemeChar (c : Char) : Bool := c.isAlphanum || c = '+' || c = '-' || c = '.'

/-- A letter, further letters, digits and some signs, and a colon. -/
def scheme? (s : List Char) : Option (List Char × List Char) :=
  match cutFirst ':' s with
  | some (c :: cs, rest) =>
    if c.isAlpha && cs.all isSchemeChar then some ((c :: cs).map Char.toLower, rest) else none
  | _ => none

/-- A point, plain or percent-encoded. -/
def isDot (s : List Char) : Bool := s = ['.'] || s.map Char.toLower = ['%', '2', 'e']

/-- Two points, each of them plain or percent-encoded. -/
def isDoubleDot (s : List Char) : Bool :=
  (s.head? = some '.' && isDot s.tail) || (isDot (s.take 3) && isDot (s.drop 3))

/-- A letter and a colon or bar, which names a drive. -/
def isDrive : List Char → Bool
  | [c, d] => c.isAlpha && (d = ':' || d = '|')
  | _ => false

/-- Segments with those gone that are points; two points also take the segment before them, but
never a drive. `kept` is read backwards. -/
def resolve (kept : List (List Char)) : List (List Char) → List (List Char)
  | [] => kept.reverse
  | s :: rest =>
    if isDoubleDot s then
      resolve (match kept with
        | p :: ps => if isDrive p then p :: ps else ps
        | [] => []) rest
    else resolve (if isDot s then kept else s :: kept) rest

/-- Texts between the slashes. -/
def segments (k : Kind) (s : List Char) : List (List Char) :=
  parts '/' (s.map fun c => if k.isSlash c then '/' else c)

def beforeQuery (s : List Char) : List Char := s.takeWhile fun c => c ≠ '?' && c ≠ '#'

/-- What stands between the first question mark and the first hash after it. -/
def queryOf (s : List Char) : List Char :=
  match s.dropWhile fun c => c ≠ '?' && c ≠ '#' with
  | '?' :: rest => rest.takeWhile (· ≠ '#')
  | _ => []

def withPath (u : Url) (k : Kind) (s : List Char) : Url :=
  let path := beforeQuery s
  let path := if path.head?.any k.isSlash then path.tail else path
  { u with path := resolve [] (segments k path), query := queryOf s }

/-- A host, and what begins with the first colon outside brackets. -/
def cutPort (inBrackets : Bool) : List Char → List Char × List Char
  | [] => ([], [])
  | c :: rest =>
    if c = ':' && !inBrackets then ([], c :: rest)
    else
      let inBrackets := c = '[' || (inBrackets && c ≠ ']')
      let (host, port) := cutPort inBrackets rest
      (c :: host, port)

/-- What follows a colon and the number of a port, which may be left out or end at a backslash. -/
def port? (s : List Char) : Option (List Char) :=
  match s with
  | ':' :: rest =>
    let ds := rest.takeWhile Char.isDigit
    let rest := rest.dropWhile Char.isDigit
    if Digits.inBase 10 ds < 65536 && rest.head?.all (· = '\\') then some rest else none
  | rest => some rest

/-- User, password, host, port and path after two slashes. -/
def ofAuthority? (scheme : List Char) (k : Kind) (s : List Char) : Option Url := do
  let authority := s.takeWhile fun c => !k.isEnd c
  let rest := s.dropWhile fun c => !k.isEnd c
  let (info, place) := (cutLast '@' authority).getD ([], authority)
  if authority = ['@'] && !rest.isEmpty then none
  let (user, password) := (cutFirst ':' info).getD (info, [])
  let (host, port) := cutPort false place
  if host.isEmpty && (k = .web || !port.isEmpty || !user.isEmpty || !password.isEmpty) then none
  if !isHost (k = .web) host then none
  let extra ← port? port
  return withPath { scheme, user, password, host } k (extra ++ rest)

/-- A file may be on another host; a drive is none. -/
def ofFile? (scheme : List Char) (s : List Char) : Option Url :=
  match s with
  | a :: b :: rest =>
    if Kind.file.isSlash a && Kind.file.isSlash b then
      let host := rest.takeWhile fun c => !Kind.file.isEnd c
      if host.isEmpty || isDrive host then some (withPath { scheme } .file rest)
      else if isHost true host then
        some (withPath { scheme, host } .file (rest.dropWhile fun c => !Kind.file.isEnd c))
      else none
    else some (withPath { scheme } .file s)
  | s => some (withPath { scheme } .file s)

/-- Control characters and blanks at the ends are dropped, line ends and tabs everywhere. -/
def cleaned (s : List Char) : List Char :=
  let isOuter := fun (c : Char) => c.toNat ≤ 32
  ((s.dropWhile isOuter).reverse.dropWhile isOuter).reverse.filter fun c =>
    c ≠ '\t' && c ≠ '\n' && c ≠ '\r'

def parse? (s : String) : Option Url := do
  let (scheme, rest) ← scheme? (cleaned s.toList)
  match Kind.ofScheme scheme with
  | .file => ofFile? scheme rest
  | .web => ofAuthority? scheme .web (rest.dropWhile Kind.web.isSlash)
  | .other =>
    match rest with
    | '/' :: '/' :: rest => ofAuthority? scheme .other rest
    | '/' :: _ => return withPath { scheme } .other rest
    | rest => return { scheme, path := [beforeQuery rest], query := queryOf rest }

/-- Names and values of a query, as written. -/
def fields (u : Url) : List (List Char × List Char) :=
  ((parts '&' u.query).filter (!·.isEmpty)).map fun p => (cutFirst '=' p).getD (p, [])

end Url
end DataAccess
