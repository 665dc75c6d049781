import Rollout.Toml.Value

/-!
TOML strings.

A string stands between double quotes, with escapes, or between single quotes, without. Three quotes
at each end make it run over several lines; a line break right after them is dropped, and one or two
quotes may stand just before the three that close it. A machine reads such a string one character at
a time and remembers what it is in the middle of. Line breaks are single characters here.
-/
namespace Rollout.Toml

/-- A kind of strings. -/
structure Style where
  mark : Char
  escapes : Bool
  lines : Bool
  deriving DecidableEq, Repr

/-- What the machine is in the middle of. -/
inductive Place where
  | plain
  /-- Behind one or two marks, which close nothing yet. -/
  | marks (count : Nat)
  /-- Behind the three marks that close the string, and `extra` more. -/
  | closing (extra : Nat)
  /-- Behind a backslash. -/
  | escape
  /-- In the blanks between a backslash and the end of its line. -/
  | escapedBlank
  /-- In the blanks and line breaks behind a backslash at the end of a line. -/
  | trimming
  /-- In the hexadecimal digits of a code point, of which `left + 1` are still to come. -/
  | code (left value : Nat)
  deriving DecidableEq, Repr

def isBlank (c : Char) : Bool := c == ' ' || c == '\t'

/-- No control character but the tab. -/
def isPrinting (c : Char) : Bool := c == '\t' || (0x20 ≤ c.toNat && c.toNat != 0x7F)

/-- What a letter behind a backslash stands for. -/
def escaped? (c : Char) : Option Char :=
  [('b', '\x08'), ('t', '\t'), ('n', '\n'), ('f', '\x0C'), ('r', '\r'), ('"', '"'),
   ('\\', '\\')].lookup c

/-- The value of a hexadecimal digit. -/
def hexDigit? (c : Char) : Option Nat :=
  if c.isDigit then some (c.toNat - 48)
  else if 'a' ≤ c ∧ c ≤ 'f' then some (c.toNat - 87)
  else if 'A' ≤ c ∧ c ≤ 'F' then some (c.toNat - 55)
  else none

/-- The character with a code point, if there is one. -/
def charOf? (n : Nat) : Option Char := if n.isValidChar then some (Char.ofNat n) else none

/-- A character in plain text: where it leads, and what the string is then, newest first. -/
def plainStep (style : Style) (c : Char) (done : List Char) : Option (Place × List Char) :=
  if c = '\\' ∧ style.escapes then some (.escape, done)
  else if c = '\n' ∧ style.lines then some (.plain, c :: done)
  else if c ≠ style.mark ∧ isPrinting c then some (.plain, c :: done)
  else none

/-- A character behind a backslash. -/
def escapeStep (style : Style) (c : Char) (done : List Char) : Option (Place × List Char) :=
  match escaped? c with
  | some d => some (.plain, d :: done)
  | none =>
    if c = 'u' then some (.code 3 0, done)
    else if c = 'U' then some (.code 7 0, done)
    else if style.lines ∧ isBlank c then some (.escapedBlank, done)
    else if style.lines ∧ c = '\n' then some (.trimming, done)
    else none

/-- A digit of a code point. -/
def codeStep (left value : Nat) (c : Char) (done : List Char) : Option (Place × List Char) := do
  let value := 16 * value + (← hexDigit? c)
  match left with
  | 0 => some (.plain, (← charOf? value) :: done)
  | left + 1 => some (.code left value, done)

/-- A mark in plain text of a string that runs over lines, and the marks that follow it. -/
def markStep : Nat → Option Place
  | 0 => some (.marks 1)
  | 1 => some (.marks 2)
  | 2 => some (.closing 0)
  | 3 => some (.closing 1)
  | 4 => some (.closing 2)
  | _ => none

/-- Reads the rest of a string, whose characters so far are `done`, newest first. -/
def stringFrom (style : Style) : Place → List Char → Reader (List Char)
  | .closing extra, done, [] => some ((List.replicate extra style.mark ++ done).reverse, [])
  | _, _, [] => none
  | .plain, done, c :: cs =>
    if c = style.mark then
      if style.lines then stringFrom style (.marks 1) done cs else some (done.reverse, cs)
    else match plainStep style c done with
      | some (place, done) => stringFrom style place done cs
      | none => none
  | .marks count, done, c :: cs =>
    if c = style.mark then
      match markStep count with
      | some place => stringFrom style place done cs
      | none => none
    else match plainStep style c (List.replicate count style.mark ++ done) with
      | some (place, done) => stringFrom style place done cs
      | none => none
  | .closing extra, done, c :: cs =>
    if c = style.mark then
      match markStep (extra + 3) with
      | some place => stringFrom style place done cs
      | none => none
    else some ((List.replicate extra style.mark ++ done).reverse, c :: cs)
  | .escape, done, c :: cs =>
    match escapeStep style c done with
    | some (place, done) => stringFrom style place done cs
    | none => none
  | .escapedBlank, done, c :: cs =>
    if isBlank c then stringFrom style .escapedBlank done cs
    else if c = '\n' then stringFrom style .trimming done cs
    else none
  | .trimming, done, c :: cs =>
    if isBlank c || c = '\n' then stringFrom style .trimming done cs
    else if c = style.mark then stringFrom style (.marks 1) done cs
    else match plainStep style c done with
      | some (place, done) => stringFrom style place done cs
      | none => none
  | .code left value, done, c :: cs =>
    match codeStep left value c done with
    | some (place, done) => stringFrom style place done cs
    | none => none

/-- Reads a string of one line behind its opening mark. -/
def lineString (mark : Char) : Reader String := fun cs => do
  let (s, rest) ← stringFrom ⟨mark, mark == '"', false⟩ .plain [] cs
  some (String.ofList s, rest)

/-- Reads a string behind its three opening marks. -/
def linesString (mark : Char) (cs : List Char) : Option (String × List Char) := do
  let cs := match cs with
    | '\n' :: r => r
    | _ => cs
  let (s, rest) ← stringFrom ⟨mark, mark == '"', true⟩ .plain [] cs
  some (String.ofList s, rest)

/-- Reads a string behind its first mark. -/
def string (mark : Char) : Reader String := fun cs =>
  match cs with
  | a :: b :: rest =>
    if a = mark ∧ b = mark then linesString mark rest else lineString mark cs
  | _ => lineString mark cs

end Rollout.Toml
