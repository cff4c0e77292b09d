import DataAccess.CommandLine.Request
import DataAccess.Config.Reader
import DataAccess.Query.Answer
import DataAccess.Session.Pool

/-! Running a command line: what it prints, and how it fails. -/
namespace DataAccess.CommandLine

/-- Why a request fails. -/
inductive Failure where
  | config (path : String)
  | pool
  | params (got : Json)
  | noColumns (table : String)
  | closing
  /-- A calculation that no word holds stops the program at once. -/
  | overflow
  | data (e : Error)

def Failure.message : Failure → String
  | config path => "Failed to load config from " ++ path
  | pool => "Failed to create the pool"
  | params got => "--params must be a JSON array, got " ++ got.text
  | noColumns table => "Table '" ++ table ++ "' has no visible columns"
  | closing => "Failed to close the pool"
  | overflow => "arithmetic overflow"
  | data e => e.message

/-- How a run ends. -/
inductive Outcome where
  | printed (text : String)
  | failed (failure : Failure)
  | stopped (s : Stop)

namespace Outcome

def usage : String :=
  "Usage: [--config PATH] [--debug] COMMAND\n\n" ++
  "  exec SQL        run a statement\n" ++
  "  select TABLE    rows of a table\n" ++
  "  count TABLE     number of rows\n" ++
  "  columns TABLE   columns and their types\n" ++
  "  sql TABLE       the statement of a selection\n"

def code : Outcome → UInt8
  | printed _ => 0
  | failed .overflow => 101
  | failed _ => 1
  | stopped .misuse => 2
  | stopped _ => 0

def output : Outcome → String
  | printed text => text
  | stopped .help => usage
  | stopped .version => "0.3.0\n"
  | _ => ""

def errorOutput : Outcome → String
  | failed .overflow => Failure.overflow.message ++ "\n"
  | failed f => "Error: " ++ f.message ++ "\n"
  | stopped .misuse => usage
  | _ => ""

end Outcome

/-- What a program is told by the machine it runs on. -/
structure Host where
  environment : String → Option String
  /-- The text of a file. -/
  contents : String → Option String
  defaultConfig : Option String := none

/-- A task that fails in the words of a command line. -/
abbrev Job (σ α : Type) := ExceptT Failure (Routine (World σ)) α

namespace Job
variable {σ α : Type}

def ofAct (task : Act (World σ) α) (failure : Error → Failure := .data) : Job σ α :=
  .mk (task.run.bind fun r => .done (r.mapError failure))

def fail (f : Failure) : Job σ α := .mk (.done (.error f))

/-- What has been calculated without an overflow. -/
def calculated : Option α → Job σ α
  | some a => .mk (.done (.ok a))
  | none => fail .overflow

end Job

def printed (j : Json) : String := j.pretty ++ "\n"

variable {σ : Type} [Link σ]

/-- A session on the database that the settings name. -/
def openSession (host : Host) (config : Config) : Job σ Nat := do
  let database ← .ofAct (Pool.connect host.environment config) fun _ => .pool
  .ofAct (.step fun w =>
    let (n, w) := w.addSession database config
    (.ok n, w))

def columnsText (n : Nat) (table : String) : Job σ String := do
  let schema ← .ofAct (Schema.ensure n [table])
  match (Assoc.get? schema table).getD [] with
  | [] => .fail (.noColumns table)
  | columns => return printed (.object (columns.map fun c => (c.1, .string c.2.name)))

/-- A page in the log, which tells whether more rows follow. -/
def logged (window : Option Window) : Output → Job σ Unit
  | .page p => do
    if let some w := window then
      let _ ← .calculated (p.hasMore w)
  | _ => return

/-- The text that a request prints. -/
def perform (host : Host) (config : Config) : Request → Job σ String
  | .sql s => do
    let conditions ← .ofAct (.ofExcept ((s.filter.map Condition.parse).getD (.ok [])))
    let window ← .calculated s.window?
    let c ← .ofAct (.ofExcept (compile (s.spec conditions window) config []))
    return printed (.object [("sql", .string c.sql), ("params", .array c.params)])
  | .exec sql params options => do
    let n ← openSession host config
    match params with
    | .array params => return printed (← .ofAct (Session.execWith n sql params options)).toJson
    | got => .fail (.params got)
  | .select s => do
    let n ← openSession host config
    let window ← .calculated s.window?
    let o ← .ofAct ((Draft.ofEdits s.table (s.edits window)).execute n)
    logged window o
    return printed o.toJson
  | .count table filter key => do
    let n ← openSession host config
    let draft := Draft.ofEdits table (filter.toList.map .filter)
    return toString (← .ofAct (draft.count n key)) ++ "\n"
  | .columns table => do columnsText (← openSession host config) table

def settings (host : Host) (path : Option String) : Except Failure Config :=
  match path with
  | none => .ok {}
  | some path =>
    match host.contents path with
    | none => .error (.config path)
    | some text => (Config.parse host.environment text).mapError fun _ => .config path

/-- A request and the closing of what it has opened, whose failure counts more. After an overflow
nothing is closed any more. -/
def closed (task : Job σ String) : Job σ String := do
  let outcome ← show Job σ (Except Failure String) from .mk (task.run.bind fun r => .done (.ok r))
  if let .error .overflow := outcome then .fail .overflow
  .ofAct Pool.shutdown fun _ => .closing
  .mk (.done outcome)

/-- A whole run over a link. -/
def run (link : σ) (host : Host) (args : List String) : Outcome :=
  match Invocation.parse host.defaultConfig args with
  | .error s => .stopped s
  | .ok invocation =>
    match settings host invocation.config with
    | .error f => .failed f
    | .ok config =>
      match (Routine.run (closed (perform host config invocation.request)).run
          { wire := { link } }).1 with
      | .ok text => .printed text
      | .error f => .failed f

end DataAccess.CommandLine
