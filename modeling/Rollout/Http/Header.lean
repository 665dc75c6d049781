import Rollout.Decimal.Natural
import Rollout.Text.Blank
import Rollout.Text.Utf8

/-!
The headers of an answer: lines with a name and a value.

A name is a word of ASCII letters, digits and some marks, and a colon stands right behind it. A
value is a run of bytes without control characters, of which only the tab is allowed; blanks around
it do not belong to it.

Headers also say how far the body goes that follows them. If the last of its encodings is `chunked`,
the body says so itself; with any other encoding it goes on to the end of the connection. Without
encodings the length counts, which may be given more than once if it is the same each time.
-/
namespace Rollout.Http

open Text (Bytes)

/-- Headers in the order in which they were sent. -/
abbrev Headers := List (String × Bytes)

/-- The end of a line as it is written. -/
def lineBreak : List Char := ['\r', '\n']

/-! ### Single headers -/

/-- A byte of a name. -/
def isNameByte (b : UInt8) : Bool :=
  let c := Char.ofNat b.toNat
  c.isAlphanum || "!#$%&'*+-.^_`|~".toList.contains c

/-- A byte of a value. -/
def isValueByte (b : UInt8) : Bool := b == 0x09 || (0x20 ≤ b && b != 0x7F)

/-- A blank around a value. -/
def isGap (b : UInt8) : Bool := b == 0x20 || b == 0x09

/-- A value without the blanks around it. -/
def trimValue (bs : Bytes) : Bytes :=
  ((bs.dropWhile isGap).reverse.dropWhile isGap).reverse

/-- The text of bytes that are characters of the same number. -/
def latinText (bs : Bytes) : String := String.ofList (bs.map fun b => Char.ofNat b.toNat)

/-- Reads a header from its line. -/
def header? (line : Bytes) : Option (String × Bytes) :=
  let name := line.takeWhile isNameByte
  match line.dropWhile isNameByte with
  | 0x3A :: value =>
    if !name.isEmpty && value.all isValueByte then some (latinText name, trimValue value) else none
  | _ => none

/-- A value as text, which it is if it has only visible characters and blanks of ASCII. -/
def valueText? (bs : Bytes) : Option String :=
  if bs.all fun b => isValueByte b && b < 0x80 then some (latinText bs) else none

/-! ### All headers -/

/-- The values of the headers with a name, upper and lower case being the same. -/
def Headers.all (hs : Headers) (name : String) : List Bytes :=
  (hs.filter fun h => h.1.toLower == name.toLower).map (·.2)

/-- The value of the first header with a name. -/
def Headers.get? (hs : Headers) (name : String) : Option Bytes := (hs.all name).head?

/-- What a value lists between its commas, without the blanks around it. -/
def listed (value : String) : List (List Char) :=
  (value.splitOn ",").map fun part => Text.trim part.toList

/-- How far a body goes. -/
inductive Extent where
  /-- As far as the chunks that it is sent in. -/
  | chunked
  | counted (size : Nat)
  /-- To the end of the connection. -/
  | toEnd
  deriving DecidableEq, Repr

/-- The last of the encodings that a value lists is the one into chunks. -/
def endsChunked (value : Bytes) : Bool :=
  match (valueText? value).bind fun t => (listed t).getLast? with
  | some coding => (String.ofList coding).toLower == "chunked"
  | none => false

/-- Bodies have fewer bytes than this. -/
def sizeLimit : Nat := Decimal.wordLimit - 2

/-- The one size that values name. -/
def commonSize? (values : List Bytes) : Option Nat := do
  let texts ← values.mapM valueText?
  let sizes ← (texts.flatMap listed).mapM Decimal.natural?
  let size ← sizes.head?
  if size < sizeLimit && sizes.all (· == size) then some size else none

/-- How far the body goes behind these headers, if they say it clearly. -/
def Headers.extent? (hs : Headers) : Option Extent :=
  match (hs.all "Transfer-Encoding").getLast? with
  | some value => some (if endsChunked value then .chunked else .toEnd)
  | none =>
    match hs.all "Content-Length" with
    | [] => some .toEnd
    | values => (commonSize? values).map .counted

end Rollout.Http
