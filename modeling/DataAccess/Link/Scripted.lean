import DataAccess.Link.Basic
import DataAccess.Text.Cut

/-! Links that answer from a script, for trying out sessions without a server. -/
namespace DataAccess

/-- Statements with the fragment in them fail, for ever or a number of times. -/
structure Script.Failure where
  fragment : String
  left : Option Nat := none
  deriving DecidableEq, Repr

structure Script where
  failingConnects : Nat := 0
  failures : List Script.Failure := []
  /-- Rows for statements with a fragment in them. -/
  responses : List (String × List Record) := []
  failsToFinish : Bool := false

namespace Script
open Text

def mentions (sql fragment : String) : Bool := Text.contains fragment.toList sql.toList

def Failure.applies (sql : String) (f : Failure) : Bool :=
  mentions sql f.fragment && f.left ≠ some 0

/-- The failures after the first that applies has been used, if there is one. -/
def useFailure? (sql : String) : List Failure → Option (List Failure)
  | [] => none
  | f :: rest =>
    if Failure.applies sql f then some ({ f with left := f.left.map (· - 1) } :: rest)
    else (useFailure? sql rest).map (f :: ·)

def rows (s : Script) (sql : String) : List Record :=
  ((s.responses.find? fun r => mentions sql r.1).map (·.2)).getD []

def connect (s : Script) : Option Address → Except Error Unit × Script
  | some _ => (.error (.link "connection refused"), s)
  | none =>
    match s.failingConnects with
    | 0 => (.ok (), s)
    | n + 1 => (.error (.link "connection refused"), { s with failingConnects := n })

def query (s : Script) (sql : String) : Except Error (List Record) × Script :=
  match useFailure? sql s.failures with
  | some failures => (.error (.link ("scripted failure: " ++ sql)), { s with failures })
  | none => (.ok (s.rows sql), s)

def finish (s : Script) : Option Address → Except Error Unit
  | some _ => .ok ()
  | none => if s.failsToFinish then .error (.link "end failed") else .ok ()

instance : Link Script where
  connect := connect
  query s _ sql _ := s.query sql
  release s _ := s
  finish s address := (s.finish address, s)

end Script

/-- A link that answers whatever it is sent with the next rows, while there are some. -/
structure Tape where
  failingConnects : Nat := 0
  answers : List (List Record) := []

namespace Tape

def connect (t : Tape) : Except Error Unit × Tape :=
  match t.failingConnects with
  | 0 => (.ok (), t)
  | n + 1 => (.error (.link "connection refused"), { t with failingConnects := n })

instance : Link Tape where
  connect t _ := t.connect
  query t _ _ _ := (.ok (t.answers.headD []), { t with answers := t.answers.tail })
  release t _ := t
  finish t _ := (.ok (), t)

end Tape
end DataAccess
