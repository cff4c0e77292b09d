import DataAccess.Session.Operation
import DataAccess.Text.Cut

/-!
Looking up column types. Each table is looked up once for all sessions on a database; the look-ups
of a database queue for its catalogue.
-/
namespace DataAccess.Schema
open Text
variable {σ : Type} [Link σ]

/-- Names and types of the columns of a table; without a namespace the current one is meant. -/
def columnsSql : String :=
  "SELECT column_name::text AS column_name, udt_name::text AS udt_name " ++
  "FROM information_schema.columns " ++
  "WHERE table_schema::text = COALESCE($1::text, current_schema()::text) " ++
  "AND table_name::text = $2"

/-- Namespace and name of a table. -/
def columnsParams (table : String) : List Json :=
  match cutLast '.' table.toList with
  | some (space, name) => [.string (String.ofList space), .string (String.ofList name)]
  | none => [.null, .string table]

def load (n : Nat) (table : String) : Act (World σ) TableSchema := do
  let rows ← Session.execWith n columnsSql (columnsParams table) { raw := true }
  return .ofRows rows.intoRows

/-- Loads a table that the catalogue does not know. -/
def ensureTable (n catalogue : Nat) (table : String) : Act (World σ) Unit := do
  let known ← .read fun w => w.catalogue catalogue
  if (Assoc.get? known table).isSome then return ()
  let columns ← load n table
  .modify fun w => w.putCatalogue catalogue (Assoc.put (w.catalogue catalogue) table columns)

def ensureTables (n catalogue : Nat) : List String → Act (World σ) Unit
  | [] => return ()
  | table :: rest => do
    ensureTable n catalogue table
    ensureTables n catalogue rest

/-- The part of a catalogue that is about some tables. -/
def restricted (s : Schema) (tables : List String) : Schema :=
  Assoc.ofList (tables.filterMap fun t => (Assoc.get? s t).map fun columns => (t, columns))

/-- The column types of tables, which the given session looks up where they are not known. -/
def ensure (n : Nat) (tables : List String) : Act (World σ) Schema := do
  let catalogue := (← Session.look n).database.catalogue
  .holding (.catalogue catalogue) do
    ensureTables n catalogue tables
    .read fun w => (w.catalogue catalogue).restricted tables

/-- Forgets a table, and tells whether it was known. -/
def forget (n : Nat) (table : String) : Act (World σ) Bool := do
  let catalogue := (← Session.look n).database.catalogue
  .holding (.catalogue catalogue) (.step fun w =>
    let known := w.catalogue catalogue
    (.ok (Assoc.get? known table).isSome, w.putCatalogue catalogue (Assoc.erase known table)))

end DataAccess.Schema
