import DataAccess.Schema.Basic
import DataAccess.Session.Routine
import DataAccess.Session.Turn

/-! The sessions of a program, and what they share. -/
namespace DataAccess

/-- The link, the sessions by number, the known column types by catalogue, and the database that
is in use where none is named. -/
structure World (σ : Type) where
  wire : Wire σ
  sessions : List (Nat × Session) := []
  catalogues : List (Nat × Schema) := []
  pool : Option Database := none

namespace World
variable {σ : Type}

def session (w : World σ) (n : Nat) : Session :=
  (Assoc.get? w.sessions n).getD { number := n, database := ⟨0, none⟩ }

def putSession (w : World σ) (n : Nat) (s : Session) : World σ :=
  { w with sessions := Assoc.put w.sessions n s }

def catalogue (w : World σ) (c : Nat) : Schema := (Assoc.get? w.catalogues c).getD []

def putCatalogue (w : World σ) (c : Nat) (tables : Schema) : World σ :=
  { w with catalogues := Assoc.put w.catalogues c tables }

/-- A database of which nothing is known yet. -/
def addDatabase (w : World σ) (address : Option Address) : Database × World σ :=
  let c := w.catalogues.length
  (⟨c, address⟩, w.putCatalogue c [])

/-- A session on a database; sessions are numbered from one. -/
def addSession (w : World σ) (database : Database) (config : Config) : Nat × World σ :=
  let n := w.sessions.length + 1
  (n, w.putSession n { number := n, database, config })

/-- The turn of one session at the link. -/
def turn {α : Type} (w : World σ) (n : Nat) (t : Scope σ → α × Scope σ) : α × World σ :=
  let (a, s) := t ⟨w.session n, w.wire⟩
  (a, { w.putSession n s.session with wire := s.wire })

def publish (w : World σ) (n : Nat) (e : Event) : World σ :=
  w.putSession n ((w.session n).publish e)

/-- A wait of some task. -/
def pause (w : World σ) (delay : Duration) : World σ := { w with wire := w.wire.pause delay }

end World
end DataAccess
