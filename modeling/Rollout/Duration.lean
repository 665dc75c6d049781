import Rollout.Text.Blank
import Rollout.Decimal.Natural

/-!
Spans of time, in whole milliseconds, and how they are written in a configuration.

A text is a number and a unit, `ms`, `s` or `m`, with blanks allowed around both; a number alone
counts seconds. Every part but the milliseconds has to fit in a 64-bit count of seconds.
-/
namespace Rollout

/-- A span of time in whole milliseconds. -/
structure Duration where
  millis : Nat
  deriving DecidableEq, Repr, Inhabited

namespace Duration

def ofMillis (n : Nat) : Duration := ⟨n⟩

def ofSeconds (n : Nat) : Duration := ⟨1000 * n⟩

/-- Minutes, if their seconds fit in a word. -/
def ofMinutes? (n : Nat) : Option Duration :=
  if 60 * n < Decimal.wordLimit then some (ofSeconds (60 * n)) else none

def isZero (d : Duration) : Bool := d.millis == 0

/-- The whole seconds of a span. -/
def seconds (d : Duration) : Nat := d.millis / 1000

/-- The part of a span below a second, in nanoseconds. -/
def nanos (d : Duration) : Nat := d.millis % 1000 * 1000000

/-- The units a duration can be written in. -/
inductive Unit where
  | millisecond | second | minute
  deriving DecidableEq, Repr

/-- The suffix that names a unit. -/
def Unit.suffix : Unit → List Char
  | .millisecond => ['m', 's']
  | .second => ['s']
  | .minute => ['m']

/-- That many units, if the span can be held. -/
def Unit.span? : Unit → Nat → Option Duration
  | .millisecond, n => some (ofMillis n)
  | .second, n => some (ofSeconds n)
  | .minute, n => ofMinutes? n

/-- Splits a text into what stands before its unit and the unit: `ms` is looked for first, then
`s`, then `m`, and a text with none of them counts seconds. -/
def splitUnit (s : List Char) : List Char × Unit :=
  match Text.beforeSuffix? Unit.millisecond.suffix s with
  | some r => (r, .millisecond)
  | none =>
    match Text.beforeSuffix? Unit.second.suffix s with
    | some r => (r, .second)
    | none =>
      match Text.beforeSuffix? Unit.minute.suffix s with
      | some r => (r, .minute)
      | none => (s, .second)

/-- Reads a duration from the characters of a text. -/
def ofChars? (s : List Char) : Option Duration :=
  let (number, unit) := splitUnit (Text.trim s)
  (Decimal.word? (Text.trim number)).bind unit.span?

/-- Reads a duration such as `5s`, `500 ms`, `2m` or `30`. -/
def parse? (s : String) : Option Duration := ofChars? s.toList

/-- The fraction of a second, `millis < 1000` thousandths, without trailing zeros. -/
def fractionText (millis : Nat) : String :=
  let three := ((Decimal.digits (1000 + millis)).drop 1).reverse
  String.ofList (three.dropWhile (· == '0')).reverse

/-- A span as people read it: `1s`, `1.5s` and `61.001s` from a second on, `250ms` below one. -/
def text (d : Duration) : String :=
  if d.millis == 0 then "0ns"
  else if d.millis < 1000 then s!"{d.millis}ms"
  else
    let fraction := fractionText (d.millis % 1000)
    if fraction.isEmpty then s!"{d.seconds}s" else s!"{d.seconds}.{fraction}s"

end Duration

end Rollout
