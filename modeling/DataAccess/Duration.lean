import DataAccess.Number.Power
import DataAccess.Text.Letter

/-! Lengths of time and their text, such as `1h 30m`. -/
namespace DataAccess

structure Duration where
  seconds : Nat
  nanos : Nat
  deriving DecidableEq, Repr, Inhabited

namespace Duration
open Text

def zero : Duration := ⟨0, 0⟩

def perSecond : Nat := 1000000000

def ofMillis (ms : Nat) : Duration := ⟨ms / 1000, ms % 1000 * 1000000⟩

/-- Timers run in whole milliseconds. -/
def ceilMillis (d : Duration) : Nat := d.seconds * 1000 + (d.nanos + 999999) / 1000000

inductive Unit where
  | nanosecond | microsecond | millisecond | second | minute | hour | day | week | month | year
  deriving DecidableEq, Repr

def Unit.spellings : List (Unit × List String) :=
  [(.nanosecond, ["nanos", "nsec", "ns"]),
   (.microsecond, ["usec", "us", "µs"]),
   (.millisecond, ["millis", "msec", "ms"]),
   (.second, ["seconds", "second", "secs", "sec", "s"]),
   (.minute, ["minutes", "minute", "min", "mins", "m"]),
   (.hour, ["hours", "hour", "hrs", "hr", "h"]),
   (.day, ["days", "day", "d"]),
   (.week, ["weeks", "week", "wk", "wks", "w"]),
   (.month, ["months", "month", "M"]),
   (.year, ["years", "year", "yr", "yrs", "y"])]

def Unit.ofText? (s : String) : Option Unit :=
  (Unit.spellings.find? fun e => e.2.contains s).map (·.1)

/-- Length of a unit: whole seconds, or else nanoseconds. -/
def Unit.length : Unit → Nat × Nat
  | .nanosecond => (0, 1)
  | .microsecond => (0, 1000)
  | .millisecond => (0, 1000000)
  | .second => (1, 0)
  | .minute => (60, 0)
  | .hour => (3600, 0)
  | .day => (86400, 0)
  | .week => (604800, 0)
  | .month => (2630016, 0)
  | .year => (31557600, 0)

/-- What a fraction of a unit is counted in: the units up to the minute have nanoseconds. -/
def Unit.fractionLength : Unit → Option (Nat × Nat)
  | .nanosecond => none
  | .second => some (0, 1000000000)
  | .minute => some (0, 60000000000)
  | u => some u.length

def wordLimit : Nat := pow2 64

def word? (n : Nat) : Option Nat := if n < wordLimit then some n else none

/-- Sums that pass 64 bits are refused. -/
def plus? (d : Duration) (seconds nanos : Nat) : Option Duration := do
  let n ← word? (d.nanos + nanos)
  let carried ← word? (seconds + n / perSecond)
  let s ← word? (d.seconds + carried)
  return ⟨s, n % perSecond⟩

/-- A fraction `numerator / denominator` of a unit that is a whole count. -/
def addFraction? (d : Duration) (u : Unit) (numerator denominator : Nat) : Option Duration := do
  let (s, n) ← u.fractionLength
  let s ← word? (numerator * s)
  let n ← word? (numerator * n)
  if s % denominator = 0 && n % denominator = 0 then d.plus? (s / denominator) (n / denominator)
  else none

def add? (d : Duration) (whole : Nat) (fraction : Option (Nat × Nat)) (u : Unit) :
    Option Duration := do
  let s ← word? (whole * u.length.1)
  let n ← word? (whole * u.length.2)
  let d ← d.plus? s n
  match fraction with
  | none => return d
  | some (numerator, denominator) => d.addFraction? u numerator denominator

def isUnitChar (c : Char) : Bool := c.isAlpha || c = 'µ'

def appendDigit? (n : Nat) (c : Char) : Option Nat := word? (n * 10 + (c.toNat - 48))

/-- Digits and blanks up to a letter, a point or the end. -/
def wholeNumber? (n : Nat) : List Char → Option (Nat × List Char)
  | [] => some (n, [])
  | c :: rest =>
    if c.isDigit then do wholeNumber? (← appendDigit? n c) rest
    else if isBlank c then wholeNumber? n rest
    else if isUnitChar c || c = '.' then some (n, c :: rest)
    else none

def fractionDigits? (numerator denominator : Nat) : List Char → Option (Nat × Nat × List Char)
  | [] => some (numerator, denominator, [])
  | c :: rest =>
    if c.isDigit then do fractionDigits? (← appendDigit? numerator c) (← word? (denominator * 10)) rest
    else if isBlank c then fractionDigits? numerator denominator rest
    else if isUnitChar c then some (numerator, denominator, c :: rest)
    else none

/-- The fraction after a point has at least one digit. -/
def fraction? : List Char → Option (Option (Nat × Nat) × List Char)
  | '.' :: rest => do
    let (numerator, denominator, rest) ← fractionDigits? 0 1 rest
    if denominator = 1 then none else return (some (numerator, denominator), rest)
  | s => some (none, s)

/-- Numbers with units, one after the other, until the text ends. -/
def readFrom? (total : Duration) : Nat → List Char → Option Duration
  | 0, _ => none
  | fuel + 1, s =>
    match s.dropWhile isBlank with
    | [] => some total
    | c :: rest =>
      if !c.isDigit then none else do
      let (whole, rest) ← wholeNumber? (c.toNat - 48) rest
      let (fraction, rest) ← fraction? rest
      let unit ← Unit.ofText? (String.ofList (rest.takeWhile isUnitChar))
      let total ← total.add? whole fraction unit
      match rest.dropWhile isUnitChar with
      | [] => some total
      | c :: rest =>
        if c.isDigit || isBlank c then readFrom? total fuel (c :: rest) else none

def parse? (s : String) : Option Duration :=
  let t := trimmed s.toList
  if t = ['0'] then some zero else if t.isEmpty then none else readFrom? zero (t.length + 1) t

def counted (n : Nat) (unit : String) : List String := if n = 0 then [] else [toString n ++ unit]

/-- Units of a day and longer take a plural. -/
def countedPlural (n : Nat) (unit : String) : List String :=
  counted n (if n = 1 then unit else unit ++ "s")

def text (d : Duration) : String :=
  let afterYears := d.seconds % 31557600
  let afterMonths := afterYears % 2630016
  let inDay := afterMonths % 86400
  let pieces :=
    countedPlural (d.seconds / 31557600) "year" ++ countedPlural (afterYears / 2630016) "month" ++
    countedPlural (afterMonths / 86400) "day" ++ counted (inDay / 3600) "h" ++
    counted (inDay % 3600 / 60) "m" ++ counted (inDay % 60) "s" ++
    counted (d.nanos / 1000000) "ms" ++ counted (d.nanos / 1000 % 1000) "us" ++
    counted (d.nanos % 1000) "ns"
  if pieces.isEmpty then "0s" else " ".intercalate pieces

end Duration
end DataAccess
