import Rollout.Json.Basic
import Rollout.Decimal.Scale
import Rollout.Decimal.Natural
import Rollout.Text.Utf8

/-!
The tokens of a JSON text.

The text is a run of bytes. Strings are checked for their form only while they are scanned; whether
they hold Unicode text is settled afterwards, because a string that is skipped over need not. A
number is scanned by its grammar; its value keeps as many leading digits as fit in 64 bits.
-/
namespace Rollout.Json

open Text (Bytes)

/-- A token. A string that is no Unicode text is `none`. -/
inductive Token where
  | openObject | closeObject | openArray | closeArray | comma | colon
  | text (s : Option String)
  | scalar (v : Json)

def isDigit (b : UInt8) : Bool := 0x30 ≤ b && b ≤ 0x39

/-! ### Numbers -/

/-- A number as it is written: a whole part, perhaps a fraction, and perhaps a power of ten. -/
structure Numeral where
  negative : Bool
  whole : List Char
  fraction : Option (List Char)
  exponent : Option Int

/-- Takes digits into a significand while it stays in 64 bits; also gives the digits left over. -/
def absorb : Nat → List Char → Nat × List Char
  | n, [] => (n, [])
  | n, c :: cs =>
    let next := 10 * n + (c.toNat - 48)
    if next < Decimal.wordLimit then absorb next cs else (n, c :: cs)

/-- The value of a number: an integer if it is written as one and fits in 64 bits, signed or
unsigned, and a double otherwise; `-0` is a double too. -/
def Numeral.value (m : Numeral) : Json :=
  let (n, excess) := absorb 0 m.whole
  let isWhole := m.fraction.isNone && m.exponent.isNone && excess.isEmpty
  if isWhole && !m.negative then .int n
  else if isWhole && 0 < n && n ≤ 0x8000000000000000 then .int (-n)
  else
    let fraction := m.fraction.getD []
    let (n, dropped) := absorb n fraction
    let places : Int := excess.length - (fraction.length - dropped.length : Nat)
    match Decimal.scale? n (places + m.exponent.getD 0) with
    | some x => .float (if m.negative then -x else x)
    | none => .unusable

/-- The longest run of digits at the head of a text, and the rest. -/
def spanDigits (bs : Bytes) : List Char × Bytes :=
  ((bs.takeWhile isDigit).map fun b => Char.ofNat b.toNat, bs.dropWhile isDigit)

/-- Scans the power of ten after an `e`, which must have a digit. -/
def exponent? (bs : Bytes) : Option (Int × Bytes) :=
  let (negative, bs) := match bs with
    | 0x2B :: r => (false, r)
    | 0x2D :: r => (true, r)
    | _ => (false, bs)
  let (ds, rest) := spanDigits bs
  (Decimal.natural? ds).map fun n => (if negative then -(n : Int) else n, rest)

/-- Scans a number whose first byte is a digit or a minus sign. -/
def numeral? (bs : Bytes) : Option (Numeral × Bytes) := do
  let (negative, bs) := match bs with
    | 0x2D :: r => (true, r)
    | _ => (false, bs)
  let (whole, bs) ← match bs with
    | 0x30 :: r => some (['0'], r)
    | _ => match spanDigits bs with
      | ([], _) => none
      | (ds, r) => some (ds, r)
  let (fraction, bs) ← match bs with
    | 0x2E :: r => match spanDigits r with
      | ([], _) => none
      | (ds, r) => some (some ds, r)
    | _ => some (none, bs)
  let (exponent, bs) ← match bs with
    | 0x65 :: r | 0x45 :: r => (exponent? r).map fun (e, r) => (some e, r)
    | _ => some (none, bs)
  some (⟨negative, whole, fraction, exponent⟩, bs)

/-! ### Strings -/

/-- A piece of a string: a byte, or the 16-bit number of a `\u` escape. -/
inductive Piece where
  | byte (b : UInt8)
  | unit (n : Nat)

/-- The value of a hexadecimal digit. -/
def hexDigit? (b : UInt8) : Option Nat :=
  if isDigit b then some (b.toNat - 0x30)
  else if 0x61 ≤ b && b ≤ 0x66 then some (b.toNat - 0x57)
  else if 0x41 ≤ b && b ≤ 0x46 then some (b.toNat - 0x37)
  else none

/-- The byte that a one-letter escape stands for. -/
def escape? (b : UInt8) : Option UInt8 :=
  if b = 0x22 || b = 0x5C || b = 0x2F then some b
  else if b = 0x62 then some 0x08
  else if b = 0x66 then some 0x0C
  else if b = 0x6E then some 0x0A
  else if b = 0x72 then some 0x0D
  else if b = 0x74 then some 0x09
  else none

/-- Scans a string after its opening quote; control characters have to be escaped. -/
def pieces? : Bytes → List Piece → Option (List Piece × Bytes)
  | [], _ => none
  | 0x22 :: r, done => some (done.reverse, r)
  | 0x5C :: 0x75 :: a :: b :: c :: d :: r, done =>
    match hexDigit? a, hexDigit? b, hexDigit? c, hexDigit? d with
    | some a, some b, some c, some d => pieces? r (.unit (((a * 16 + b) * 16 + c) * 16 + d) :: done)
    | _, _, _, _ => none
  | 0x5C :: e :: r, done =>
    match escape? e with
    | some b => pieces? r (.byte b :: done)
    | none => none
  | b :: r, done => if b < 0x20 || b = 0x5C then none else pieces? r (.byte b :: done)

/-- The bytes of a string; two escapes in a row may be the halves of one character, and a half
without its other half is no text. -/
def bytesOf? : List Piece → Option Bytes
  | [] => some []
  | .byte b :: r => (bytesOf? r).map (b :: ·)
  | .unit high :: .unit low :: r =>
    if 0xD800 ≤ high ∧ high < 0xDC00 then
      if 0xDC00 ≤ low ∧ low < 0xE000 then
        let c := Char.ofNat (0x10000 + (high - 0xD800) * 0x400 + (low - 0xDC00))
        (bytesOf? r).map (String.utf8EncodeChar c ++ ·)
      else none
    else if 0xDC00 ≤ high ∧ high < 0xE000 then none
    else (bytesOf? (.unit low :: r)).map (String.utf8EncodeChar (Char.ofNat high) ++ ·)
  | .unit n :: r =>
    if 0xD800 ≤ n ∧ n < 0xE000 then none
    else (bytesOf? r).map (String.utf8EncodeChar (Char.ofNat n) ++ ·)

/-- The text of a string, if it is one. -/
def textOf? (ps : List Piece) : Option String :=
  ((bytesOf? ps).bind Text.decode?).map String.ofList

/-! ### The whole text -/

/-- White space between tokens. -/
def isSpace (b : UInt8) : Bool := b = 0x20 || b = 0x09 || b = 0x0A || b = 0x0D

/-- What is left after a word. -/
def word? (w : Bytes) (bs : Bytes) : Option Bytes :=
  if bs.take w.length = w then some (bs.drop w.length) else none

/-- Scans one token that does not start with white space. -/
def token? : Bytes → Option (Token × Bytes)
  | 0x7B :: r => some (.openObject, r)
  | 0x7D :: r => some (.closeObject, r)
  | 0x5B :: r => some (.openArray, r)
  | 0x5D :: r => some (.closeArray, r)
  | 0x2C :: r => some (.comma, r)
  | 0x3A :: r => some (.colon, r)
  | 0x22 :: r => (pieces? r []).map fun (ps, r) => (.text (textOf? ps), r)
  | 0x74 :: r => (word? [0x72, 0x75, 0x65] r).map ((.scalar (.bool true), ·))
  | 0x66 :: r => (word? [0x61, 0x6C, 0x73, 0x65] r).map ((.scalar (.bool false), ·))
  | 0x6E :: r => (word? [0x75, 0x6C, 0x6C] r).map ((.scalar .null, ·))
  | bs => (numeral? bs).map fun (m, r) => (.scalar m.value, r)

/-- Scans tokens onto `done`, newest first. A token takes at least one byte, so `fuel` at least the
length of the text is enough. -/
def scan : Nat → Bytes → List Token → Option (List Token)
  | _, [], done => some done.reverse
  | 0, _ :: _, _ => none
  | fuel + 1, b :: bs, done =>
    if isSpace b then scan fuel bs done
    else match token? (b :: bs) with
      | some (t, rest) => scan fuel rest (t :: done)
      | none => none

/-- The tokens of a text. -/
def tokens? (bs : Bytes) : Option (List Token) := scan bs.length bs []

end Rollout.Json
