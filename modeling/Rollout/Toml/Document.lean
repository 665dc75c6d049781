import Rollout.Toml.Scalar
import Rollout.Toml.Table

/-!
TOML documents.

A document is a list of lines: key and value, the header of a table, or the header of one more table
of an array. Each of them is carried out on the tables that there are so far. Values may nest, and
dotted keys may go, less than eighty levels deep.
-/
namespace Rollout.Toml

/-- As many levels are too many. -/
def depthLimit : Nat := 80

/-! ### Gaps -/

/-- A text with every line break as one character; a carriage return alone is none. -/
def unifyBreaks? : List Char → Option (List Char)
  | '\r' :: '\n' :: cs => (unifyBreaks? cs).map ('\n' :: ·)
  | c :: cs => if c = '\r' then none else (unifyBreaks? cs).map (c :: ·)
  | [] => some []

def skipBlanks (cs : List Char) : List Char := cs.dropWhile isBlank

/-- Skips a comment behind its mark. -/
def skipComment (cs : List Char) : List Char := cs.dropWhile isPrinting

/-- Skips what may stand behind the contents of a line, and the end of the line. -/
def endLine? (cs : List Char) : Option (List Char) :=
  let cs := match skipBlanks cs with
    | '#' :: r => skipComment r
    | r => r
  match cs with
  | [] => some []
  | '\n' :: r => some r
  | _ => none

/-- Skips blanks, line breaks and comments inside an array, perhaps from within a comment. -/
def skipGap : Bool → List Char → Option (List Char)
  | false, [] => some []
  | true, [] => none
  | false, c :: cs =>
    if isBlank c || c = '\n' then skipGap false cs
    else if c = '#' then skipGap true cs
    else some (c :: cs)
  | true, c :: cs =>
    if c = '\n' then skipGap false cs
    else if isPrinting c then skipGap true cs
    else none

/-! ### Keys -/

def isKeyChar (c : Char) : Bool := c.isAlphanum || c == '-' || c == '_'

/-- Reads one part of a key. -/
def keyPart : Reader String := fun cs =>
  match cs with
  | '"' :: r => lineString '"' r
  | '\'' :: r => lineString '\'' r
  | _ =>
    match cs.takeWhile isKeyChar with
    | [] => none
    | name => some (String.ofList name, cs.dropWhile isKeyChar)

/-- Reads the parts of a key behind `done`, which is newest first; each takes up a character. -/
def keyFrom : Nat → List String → Reader (List String)
  | 0, _, _ => none
  | fuel + 1, done, cs => do
    let (part, cs) ← keyPart (skipBlanks cs)
    match skipBlanks cs with
    | '.' :: r => keyFrom fuel (part :: done) r
    | r => some (part :: done, r)

/-- Reads a key: the path to it, and its last part. -/
def key : Reader (List String × String) := fun cs => do
  let (parts, rest) ← keyFrom (cs.length + 1) [] cs
  if depthLimit ≤ parts.length then none
  else match parts with
    | last :: path => some ((path.reverse, last), rest)
    | [] => none

/-! ### Values -/

/-- Reads a key, an equals sign and a value. -/
def pair (value : Reader Value) : Reader ((List String × String) × Value) := fun cs => do
  let (k, cs) ← key cs
  match cs with
  | '=' :: r =>
    let (v, rest) ← value (skipBlanks r)
    some ((k, v), rest)
  | _ => none

/-- Reads the items of an array behind `done`, which is newest first; each takes up a character. -/
def items (value : Reader Value) : Nat → List Value → Reader Value
  | 0, _, _ => none
  | fuel + 1, done, cs => do
    match ← skipGap false cs with
    | ']' :: r => some (.array done.reverse, r)
    | cs =>
      let (v, cs) ← value cs
      match ← skipGap false cs with
      | ',' :: r => items value fuel (v :: done) r
      | ']' :: r => some (.array (v :: done).reverse, r)
      | _ => none

/-- Reads pairs between braces on top of the entries before them; each takes up a character. -/
def pairs (value : Reader Value) : Nat → Entries → Reader Value
  | 0, _, _ => none
  | fuel + 1, es, cs => do
    let (((path, last), v), cs) ← pair value cs
    let es ← insert? last v path es
    match skipBlanks cs with
    | ',' :: r => pairs value fuel es r
    | '}' :: r => some (.table .inline es, r)
    | _ => none

/-- Reads a value in which arrays and tables nest at most `depth` levels deep. -/
def value : Nat → Reader Value
  | 0, cs =>
    match cs with
    | '"' :: r => (string '"' r).map fun (s, r) => (.text s, r)
    | '\'' :: r => (string '\'' r).map fun (s, r) => (.text s, r)
    | _ => wordValue cs
  | depth + 1, cs =>
    match cs with
    | '"' :: r => (string '"' r).map fun (s, r) => (.text s, r)
    | '\'' :: r => (string '\'' r).map fun (s, r) => (.text s, r)
    | '[' :: r => items (value depth) (r.length + 1) [] r
    | '{' :: r =>
      match skipBlanks r with
      | '}' :: r => some (.table .inline [], r)
      | _ => pairs (value depth) (r.length + 1) [] r
    | _ => wordValue cs

/-! ### Lines -/

/-- A line of a document. -/
inductive Line where
  | pair (path : List String) (key : String) (v : Value)
  | table (path : List String) (key : String)
  | element (path : List String) (key : String)

/-- Reads a line that is not empty, without its end. -/
def line : Reader Line := fun cs =>
  match cs with
  | '[' :: '[' :: r => do
    let ((path, last), cs) ← key r
    match cs with
    | ']' :: ']' :: rest => some (.element path last, rest)
    | _ => none
  | '[' :: r => do
    let ((path, last), cs) ← key r
    match cs with
    | ']' :: rest => some (.table path last, rest)
    | _ => none
  | _ => do
    let (((path, last), v), rest) ← pair (value (depthLimit - 1)) cs
    some (.pair path last v, rest)

/-- Reads lines behind `done`, which is newest first; each takes up a character. -/
def lines : Nat → List Line → List Char → Option (List Line)
  | 0, _, _ => none
  | fuel + 1, done, cs =>
    match skipBlanks cs with
    | [] => some done.reverse
    | '\n' :: r => lines fuel done r
    | '#' :: r => (endLine? (skipComment r)).bind (lines fuel done)
    | cs => do
      let (l, rest) ← line cs
      lines fuel (l :: done) (← endLine? rest)

/-- The tables of a document, and the path to the one that pairs are added to. -/
structure Document where
  entries : Entries
  current : List String

/-- Carries out a line. -/
def Document.add (d : Document) : Line → Option Document
  | .pair path key v => do
    some { d with entries := ← within? (insert? key v path) d.current d.entries }
  | .table path key => do some ⟨← within? (open? key) path d.entries, path ++ [key]⟩
  | .element path key => do some ⟨← within? (append? key) path d.entries, path ++ [key]⟩

/-- Reads a document; a byte order mark in front of it is skipped. -/
def parse? (cs : List Char) : Option Entries := do
  let cs ← unifyBreaks? (match cs with
    | '\uFEFF' :: r => r
    | _ => cs)
  let ls ← lines (cs.length + 1) [] cs
  let d ← ls.foldlM Document.add ⟨[], []⟩
  some d.entries

end Rollout.Toml
