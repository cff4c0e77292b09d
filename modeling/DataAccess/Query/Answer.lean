import DataAccess.Query.Aggregate
import DataAccess.Query.Draft
import DataAccess.Schema.Loading

/-! Running a query in a session. -/
namespace DataAccess.Draft
variable {σ : Type} [Link σ]

/-- The statement of a query. -/
def statement (n : Nat) (spec : Spec) : Act (World σ) Compiled := do
  let config := (← Session.look n).config
  let schema ←
    if config.introspect then Schema.ensure n (spec.knownTables config.naming) else pure []
  .ofExcept (compile spec config schema)

def answer (n : Nat) (spec : Spec) : Act (World σ) Output := do
  let c ← statement n spec
  Session.execWith n c.sql c.params { transaction := spec.command.isMutation, first := spec.first }

def countRows (n : Nat) (spec : Spec) (key : Option String) : Act (World σ) Int := do
  let config := (← Session.look n).config
  let o ← answer n (spec.counted config.naming key)
  return (o.intoValue.bind Json.signed?).getD 0

/-- The size of the whole result, as each row tells it. -/
def total? (rows : List Record) : Option Int := do
  (← Assoc.get? (← rows.head?) "total").signed?

/-- The rows of a window, and the size of the whole result: if there is no row to tell it, the
rows are counted. Where the size was in a row there is its last field then. -/
def page (n : Nat) (spec : Spec) (rows : List Record) : Act (World σ) (Page Record) := do
  let total ← match total? rows with
    | some total => pure total
    | none => countRows n spec none
  return ⟨total, rows.map fun r => Assoc.swapRemove r "total"⟩

def execute (n : Nat) (d : Draft) : Act (World σ) Output := do
  let spec := (← .ofExcept d.checked).unpaged
  let o ← answer n spec
  if spec.window.isNone then return o else return .page (← page n spec o.intoRows)

def toSql (n : Nat) (d : Draft) : Act (World σ) Compiled := do
  statement n (← .ofExcept d.checked)

def count (n : Nat) (d : Draft) (key : Option String) : Act (World σ) Int := do
  countRows n (← .ofExcept d.checked) key

def sum (n : Nat) (d : Draft) (key : String) : Act (World σ) (Option Double) := do
  let spec ← .ofExcept d.checked
  let config := (← Session.look n).config
  let o ← answer n (spec.summed config.naming key)
  return o.intoValue.bind Json.double?

end DataAccess.Draft
