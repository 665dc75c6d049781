import Rollout.Decimal.Natural
import Rollout.Decimal.Scale
import Rollout.Toml.Quoted

/-!
TOML numbers, truth values and dates.

Digits may be grouped by single underscores between them. An integer has to fit in 64 bits with a
sign, a float is the double nearest to its decimal and must not be too large for that. A date has to
exist; a time may have the second 60.
-/
namespace Rollout.Toml

/-! ### Digits -/

/-- The digits behind a first one, with an underscore allowed before each. -/
def moreDigits (isDigit : Char → Bool) : List Char → Option (List Char)
  | [] => some []
  | '_' :: c :: cs => if isDigit c then (moreDigits isDigit cs).map (c :: ·) else none
  | c :: cs => if isDigit c then (moreDigits isDigit cs).map (c :: ·) else none

/-- The digits of a group without its underscores. -/
def digits? (isDigit : Char → Bool) : List Char → Option (List Char)
  | c :: cs => if isDigit c then (moreDigits isDigit cs).map (c :: ·) else none
  | [] => none

/-- The digits of a whole number, which has no leading zero. -/
def whole? (cs : List Char) : Option (List Char) :=
  match cs with
  | ['0'] => some cs
  | '0' :: _ => none
  | _ => digits? Char.isDigit cs

/-- The sign in front of a number, and the rest. -/
def splitSign : List Char → Bool × List Char
  | '-' :: cs => (true, cs)
  | '+' :: cs => (false, cs)
  | cs => (false, cs)

/-! ### Numbers -/

def applySign (negative : Bool) (n : Nat) : Int := if negative then -n else n

/-- An integer in range. -/
def integer? (n : Int) : Option Value :=
  if -0x8000000000000000 ≤ n ∧ n < 0x8000000000000000 then some (.integer n) else none

/-- The number of some digits in a base. -/
def ofDigits (base : Nat) (ds : List Char) : Nat :=
  ds.foldl (fun n c => base * n + (hexDigit? c).getD 0) 0

/-- An integer in a base that is a power of two. -/
def based? (base : Nat) (cs : List Char) : Option Value := do
  let ds ← digits? (fun c => (hexDigit? c).any (· < base)) cs
  integer? (ofDigits base ds)

/-- A decimal integer. -/
def decimal? (cs : List Char) : Option Value := do
  let (negative, cs) := splitSign cs
  integer? (applySign negative (ofDigits 10 (← whole? cs)))

/-- The power of ten behind an `e`. -/
def exponent? (cs : List Char) : Option Int := do
  let (negative, cs) := splitSign cs
  some (applySign negative (ofDigits 10 (← digits? Char.isDigit cs)))

def isExponentMark (c : Char) : Bool := c == 'e' || c == 'E'

/-- A float with a fraction, a power of ten or both. -/
def float? (cs : List Char) : Option Value := do
  let (negative, cs) := splitSign cs
  let (mantissa, tail) := (cs.takeWhile (!isExponentMark ·), cs.dropWhile (!isExponentMark ·))
  let whole ← whole? (mantissa.takeWhile (· != '.'))
  let fraction ← match mantissa.dropWhile (· != '.') with
    | [] => some []
    | _ :: ds => digits? Char.isDigit ds
  let power ← match tail with
    | [] => some 0
    | _ :: ds => exponent? ds
  let x := Decimal.nearest (ofDigits 10 (whole ++ fraction)) (power - fraction.length)
  if negative then some (.float (-x))
  else if x.isInf then none
  else some (.float x)

/-- The floats that are no numbers in the usual sense. -/
def special? (cs : List Char) : Option Value :=
  let (negative, cs) := splitSign cs
  if cs = ['i', 'n', 'f'] then some (.float (if negative then -(1.0 / 0.0) else 1.0 / 0.0))
  else if cs = ['n', 'a', 'n'] then some (.float (0.0 / 0.0))
  else none

/-- A number of any form. -/
def number? (cs : List Char) : Option Value :=
  match cs with
  | '0' :: 'x' :: ds => based? 16 ds
  | '0' :: 'o' :: ds => based? 8 ds
  | '0' :: 'b' :: ds => based? 2 ds
  | _ =>
    match special? cs with
    | some v => some v
    | none => if cs.any fun c => c == '.' || isExponentMark c then float? cs else decimal? cs

/-! ### Dates and times -/

/-- The number of some digits, if that is what they are. -/
def count? (ds : List Char) : Option Nat := Decimal.natural? ds

def isLeapYear (year : Nat) : Bool := year % 4 == 0 && (year % 100 != 0 || year % 400 == 0)

def daysIn (year month : Nat) : Nat :=
  if month = 2 then if isLeapYear year then 29 else 28
  else if [4, 6, 9, 11].contains month then 30
  else 31

/-- What is left behind a date that exists. -/
def afterDate? (cs : List Char) : Option (List Char) :=
  match cs with
  | a :: b :: c :: d :: '-' :: e :: f :: '-' :: g :: h :: rest => do
    let year ← count? [a, b, c, d]
    let month ← count? [e, f]
    let day ← count? [g, h]
    if 1 ≤ month ∧ month ≤ 12 ∧ 1 ≤ day ∧ day ≤ daysIn year month then some rest else none
  | _ => none

/-- What is left behind hours and minutes. -/
def afterMinutes? (cs : List Char) : Option (List Char) :=
  match cs with
  | a :: b :: ':' :: c :: d :: rest => do
    let hour ← count? [a, b]
    let minute ← count? [c, d]
    if hour ≤ 23 ∧ minute ≤ 59 then some rest else none
  | _ => none

/-- What is left behind a time of day. -/
def afterTime? (cs : List Char) : Option (List Char) := do
  match ← afterMinutes? cs with
  | ':' :: a :: b :: rest =>
    if (← count? [a, b]) ≤ 60 then
      match rest with
      | '.' :: ds => if ds.head?.any Char.isDigit then some (ds.dropWhile Char.isDigit) else none
      | _ => some rest
    else none
  | _ => none

/-- A time of day, perhaps with its distance from universal time. -/
def isZonedTime (cs : List Char) : Bool :=
  match afterTime? cs with
  | some [] => true
  | some (c :: rest) =>
    if c == 'Z' || c == 'z' then rest.isEmpty
    else (c == '+' || c == '-') && afterMinutes? rest == some []
  | none => false

/-- A date, perhaps with a time behind a `T`, or a time alone. -/
def isDate (cs : List Char) : Bool :=
  match afterDate? cs with
  | some [] => true
  | some (c :: rest) => (c == 'T' || c == 't') && isZonedTime rest
  | none => afterTime? cs == some []

/-! ### Words -/

/-- The characters of numbers, truth values and dates. -/
def isWordChar (c : Char) : Bool := c.isAlphanum || "+-_.:".toList.contains c

/-- The value that a word is. -/
def word? (cs : List Char) : Option Value :=
  if cs = "true".toList then some (.boolean true)
  else if cs = "false".toList then some (.boolean false)
  else if isDate cs then some .date
  else number? cs

/-- Reads the value of a word; a time may follow a date behind a blank. -/
def wordValue : Reader Value := fun cs => do
  let (head, rest) := (cs.takeWhile isWordChar, cs.dropWhile isWordChar)
  let v ← word? head
  match rest with
  | ' ' :: tail =>
    let time := tail.takeWhile isWordChar
    if afterDate? head = some [] ∧ time ≠ [] then
      if isZonedTime time then some (v, tail.dropWhile isWordChar) else none
    else some (v, rest)
  | _ => some (v, rest)

end Rollout.Toml
