import DataAccess.CommandLine.Arguments
import DataAccess.Json.Reader
import DataAccess.Query.Draft
import DataAccess.Session.Operation

/-! What a command line asks for. -/
namespace DataAccess.CommandLine

structure Selection where
  table : String
  filter : Option Json := none
  select : List String := []
  sort : List String := []
  limit : Option UInt64 := none
  offset : Option UInt64 := none
  page : Option UInt64 := none
  perPage : UInt64 := 20
  first : Bool := false

namespace Selection

/-- The window of the page that is asked for, if any is, unless it is an overflow. -/
def window? (s : Selection) : Option (Option Window) :=
  match s.page with
  | some page => some <$> Window.ofPage page s.perPage
  | none => some none

/-- The selection as steps of a query, with the window of its page. -/
def edits (s : Selection) (window : Option Window) : List Edit :=
  s.filter.toList.map .filter ++
  (if s.select.isEmpty then [] else [.select s.select]) ++
  (if s.sort.isEmpty then [] else [.sorted s.sort]) ++
  s.offset.toList.map .offsetBy ++
  s.limit.toList.map .limitTo ++
  window.toList.map .paginated ++
  (if s.first then [.first] else [])

/-- The selection as a query, with the conditions that its filter stands for. -/
def spec (s : Selection) (conditions : List Condition) (window : Option Window) : Spec :=
  { table := s.table
    conditions
    select := s.select
    sort := s.sort
    offset := s.offset
    limit := if s.first then some 1 else s.limit
    window
    first := if s.first then .row else .all }

end Selection

inductive Request where
  | exec (sql : String) (params : Json) (options : ExecOptions)
  | select (s : Selection)
  | count (table : String) (filter : Option Json) (key : Option String)
  | columns (table : String)
  /-- The statement of a selection, without a server. -/
  | sql (s : Selection)

/-- A request and the path of the settings it runs under. -/
structure Invocation where
  config : Option String
  debug : Bool
  request : Request

def generalRules : List OptionRule := [⟨"config", .single .path, false⟩, ⟨"debug", .flag, false⟩]

def execRules : List OptionRule :=
  [⟨"params", .single .json, false⟩, ⟨"first", .flag, false⟩, ⟨"field", .single .text, false⟩,
   ⟨"transaction", .flag, false⟩, ⟨"raw", .flag, false⟩]

def selectionRules : List OptionRule :=
  [⟨"where", .single .json, false⟩, ⟨"select", .list, false⟩, ⟨"sort", .list, true⟩,
   ⟨"limit", .single .number, false⟩, ⟨"offset", .single .number, false⟩,
   ⟨"page", .single .number, false⟩, ⟨"per-page", .single .number, false⟩,
   ⟨"first", .flag, false⟩]

def countRules : List OptionRule :=
  [⟨"where", .single .json, false⟩, ⟨"key", .single .text, false⟩]

/-- The options of a command. -/
def rulesOf? : String → Option (List OptionRule)
  | "exec" => some execRules
  | "select" => some selectionRules
  | "sql" => some selectionRules
  | "count" => some countRules
  | "columns" => some []
  | _ => none

def Given.json? (g : Given) (name : String) : Option Json := (g.value? name).bind Json.parse?

def Given.number? (g : Given) (name : String) : Option UInt64 := (g.value? name).bind word?

/-- Options that exclude each other. -/
def Given.exclude (g : Given) (name : String) (others : List String) : Except Stop Unit :=
  if g.has name && others.any g.has then .error .misuse else .ok ()

def Given.onlyWord (g : Given) : Except Stop String :=
  match g.words with
  | [w] => .ok w
  | _ => .error .misuse

def selectionOf (g : Given) : Except Stop Selection := do
  g.exclude "page" ["limit", "offset", "first"]
  return {
    table := ← g.onlyWord
    filter := g.json? "where"
    select := g.values "select"
    sort := g.values "sort"
    limit := g.number? "limit"
    offset := g.number? "offset"
    page := g.number? "page"
    perPage := (g.number? "per-page").getD 20
    first := g.has "first" }

def execOf (g : Given) : Except Stop Request := do
  g.exclude "first" ["field"]
  let first := match g.value? "field" with
    | some key => .field key
    | none => if g.has "first" then .row else .all
  let params := (g.json? "params").getD (.array [])
  return .exec (← g.onlyWord) params
    { transaction := g.has "transaction", raw := g.has "raw", first }

def requestOf (command : String) (g : Given) : Except Stop Request := do
  match command with
  | "exec" => execOf g
  | "select" => return .select (← selectionOf g)
  | "sql" => return .sql (← selectionOf g)
  | "count" => return .count (← g.onlyWord) (g.json? "where") (g.value? "key")
  | _ => return .columns (← g.onlyWord)

/-- What follows the word `help`: nothing, or one command. -/
def helpOn : List String → Stop
  | [] => .help
  | [command] => if command = "help" || (rulesOf? command).isSome then .help else .misuse
  | _ => .misuse

namespace Invocation

/-- General options stand before the command or after it, where they count more. One that is open
when the command begins counts only after the command's own arguments. -/
def parse (defaultConfig : Option String) (args : List String) : Except Stop Invocation := do
  let top ← scanFrom generalRules .toFirstWord {} .nothing args
  match top.rest with
  | [] => .error .misuse
  | "help" :: rest => .error (helpOn rest)
  | command :: rest =>
    match rulesOf? command with
    | none => .error .misuse
    | some rules =>
      let g ← scan (generalRules ++ rules) rest
      let general ← top.given.settle top.pending
      return {
        config := ((g.value? "config").or (general.value? "config")).or defaultConfig
        debug := general.has "debug" || g.has "debug"
        request := ← requestOf command g }

end Invocation
end DataAccess.CommandLine
