import DataAccess.Json.Reader
import DataAccess.Text.Cut

/-!
Reading the arguments of a command line: options with two hyphens in front, whose value follows
after an equals sign or as the next argument, and plain words. After `--` there are only words.
Arguments count from left to right, so that of a mistake and a call for help the first decides.
-/
namespace DataAccess.CommandLine
open Text

/-- Why there is nothing to run. -/
inductive Stop where
  | misuse | help | version
  deriving DecidableEq, Repr

/-- Digits with an optional plus, within 64 bits. -/
def word? (s : String) : Option UInt64 :=
  (Digits.unsigned? (pow2 64) s.toList).map UInt64.ofNat

/-- What may be the value of an option; a path is not empty. -/
inductive ValueKind where
  | text | path | number | json
  deriving DecidableEq, Repr

def ValueKind.accepts : ValueKind → String → Bool
  | .text, _ => true
  | .path, s => s != ""
  | .number, s => (word? s).isSome
  | .json, s => (Json.parse? s).isSome

inductive OptionKind where
  /-- Without a value. -/
  | flag
  /-- With one value. -/
  | single (value : ValueKind)
  /-- With values between commas, and given any number of times. -/
  | list
  deriving DecidableEq, Repr

def OptionKind.accepts : OptionKind → String → Bool
  | .single kind, s => kind.accepts s
  | _, _ => true

structure OptionRule where
  name : String
  kind : OptionKind
  /-- A value that follows may begin with a hyphen. -/
  hyphens : Bool := false
  deriving DecidableEq, Repr

/-- An option that does not count before it is known where it ends. -/
inductive Pending where
  | nothing
  | awaits (rule : OptionRule)
  | holds (rule : OptionRule) (value : String)
  deriving DecidableEq, Repr

/-- Options with their values, and words, both in order. -/
structure Given where
  options : List (String × String) := []
  words : List String := []
  deriving DecidableEq, Repr

namespace Given

def has (g : Given) (name : String) : Bool := g.options.any fun o => o.1 == name

def value? (g : Given) (name : String) : Option String :=
  (g.options.find? fun o => o.1 == name).map (·.2)

def values (g : Given) (name : String) : List String :=
  g.options.flatMap fun o =>
    if o.1 == name then (parts ',' o.2.toList).map String.ofList else []

/-- One more option. Only lists are given more than once, and a value is of its kind. -/
def accept (g : Given) (r : OptionRule) (value : String) : Except Stop Given :=
  if (g.has r.name && r.kind ≠ .list) || !r.kind.accepts value then .error .misuse
  else .ok { g with options := g.options ++ [(r.name, value)] }

/-- The option that was left open counts from here on. -/
def settle (g : Given) : Pending → Except Stop Given
  | .nothing => .ok g
  | .awaits _ => .error .misuse
  | .holds r value => g.accept r value

end Given

/-- Where the words of a command line go. -/
inductive Reach where
  /-- The first word ends the options. -/
  | toFirstWord
  | toEnd
  deriving DecidableEq, Repr

def isOption (a : String) : Bool :=
  match a.toList with
  | '-' :: _ :: _ => true
  | _ => false

/-- Name and attached value of an argument with two hyphens. -/
def long? (a : String) : Option (String × Option String) :=
  match a.toList with
  | '-' :: '-' :: s =>
    match cutFirst '=' s with
    | some (name, value) => some (String.ofList name, some (String.ofList value))
    | none => some (String.ofList s, none)
  | _ => none

/-- What an argument with hyphens asks for. -/
inductive Reading where
  | complete (rule : OptionRule) (value : String)
  | awaits (rule : OptionRule)
  | stop (s : Stop)

def read (rules : List OptionRule) (reach : Reach) (a : String) : Reading :=
  match long? a with
  | none =>
    match a.toList with
    | '-' :: 'h' :: _ => .stop .help
    | '-' :: 'V' :: _ => .stop (if reach = .toFirstWord then .version else .misuse)
    | _ => .stop .misuse
  | some (name, attached) =>
    match rules.find? fun r => r.name == name, attached with
    | some r, some value => if r.kind = .flag then .stop .misuse else .complete r value
    | some r, none => if r.kind = .flag then .complete r "" else .awaits r
    | none, none =>
      if name == "help" then .stop .help
      else if name == "version" && reach = .toFirstWord then .stop .version
      else .stop .misuse
    | none, some _ => .stop .misuse

/-- Arguments that were read, the option that is still open, and what was not read. -/
structure Scan where
  given : Given := {}
  pending : Pending := .nothing
  rest : List String := []

/-- Goes on reading. An open option counts as soon as another option or a word of the same command
follows it. A command takes one word. -/
def scanFrom (rules : List OptionRule) (reach : Reach) (g : Given) (p : Pending) :
    List String → Except Stop Scan
  | [] => .ok ⟨g, p, []⟩
  | a :: rest =>
    match p with
    | .awaits r =>
      if isOption a && !r.hyphens then .error .misuse
      else scanFrom rules reach g (.holds r a) rest
    | p =>
      if a = "--" then
        match reach with
        | .toFirstWord => .error .misuse
        | .toEnd => do
          let g ← g.settle p
          return { given := { g with words := g.words ++ rest } }
      else if isOption a then
        match read rules reach a with
        | .complete r value => do
          scanFrom rules reach (← (← g.settle p).accept r value) .nothing rest
        | .awaits r => do scanFrom rules reach (← g.settle p) (.awaits r) rest
        | .stop s => do
          let _ ← g.settle p
          .error s
      else
        match reach with
        | .toFirstWord => .ok ⟨g, p, a :: rest⟩
        | .toEnd =>
          if g.words.isEmpty then do
            scanFrom rules reach { (← g.settle p) with words := [a] } .nothing rest
          else .error .misuse

/-- Reads all arguments of a command. -/
def scan (rules : List OptionRule) (args : List String) : Except Stop Given := do
  let s ← scanFrom rules .toEnd {} .nothing args
  s.given.settle s.pending

end DataAccess.CommandLine
