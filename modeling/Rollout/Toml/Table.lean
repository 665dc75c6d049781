import Rollout.Toml.Value

/-!
Building TOML tables.

A key can be given once. A header can give a table that exists only on the way to others, and
nothing else, a header of its own. A dotted key can add to tables that came about by dotted keys; it
can lead on through tables without a header, but not end in one.
-/
namespace Rollout.Toml

/-- Puts a value in the place of the one that a key has. -/
def replace (key : String) (v : Value) : Entries → Entries
  | [] => []
  | (k, w) :: rest => if k == key then (k, v) :: rest else (k, w) :: replace key v rest

/-- Adds a value under a key that is new. -/
def addNew? (key : String) (v : Value) (es : Entries) : Option Entries :=
  if (es.lookup key).isSome then none else some (es ++ [(key, v)])

/-- Changes the table that a path leads to, through the last table of an array; tables that are
missing on the way are added. -/
def within? (change : Entries → Option Entries) : List String → Entries → Option Entries
  | [], es => change es
  | key :: path, es =>
    match es.lookup key with
    | none => do some (es ++ [(key, .table .passing (← within? change path []))])
    | some (.table origin sub) =>
      if origin = .inline then none
      else do some (replace key (.table origin (← within? change path sub)) es)
    | some (.tables earlier last) => do
      some (replace key (.tables earlier (← within? change path last)) es)
    | some _ => none

/-- Adds a value under a dotted key: a path, and the key at its end. -/
def insert? (key : String) (v : Value) : List String → Entries → Option Entries
  | [], es => addNew? key v es
  | step :: path, es =>
    match es.lookup step with
    | none => do some (es ++ [(step, .table .dotted (← insert? key v path []))])
    | some (.table .dotted sub) => do
      some (replace step (.table .dotted (← insert? key v path sub)) es)
    | some (.table .passing sub) =>
      if path.isEmpty then none
      else do some (replace step (.table .passing (← insert? key v path sub)) es)
    | some (.tables earlier last) =>
      if path.isEmpty then none
      else do some (replace step (.tables earlier (← insert? key v path last)) es)
    | some _ => none

/-- Gives a table its header. -/
def open? (key : String) (es : Entries) : Option Entries :=
  match es.lookup key with
  | none => some (es ++ [(key, .table .header [])])
  | some (.table .passing sub) => some (replace key (.table .header sub) es)
  | some _ => none

/-- Starts one more table of an array of tables. -/
def append? (key : String) (es : Entries) : Option Entries :=
  match es.lookup key with
  | none => some (es ++ [(key, .tables [] [])])
  | some (.tables earlier last) => some (replace key (.tables (earlier ++ [last]) []) es)
  | some _ => none

end Rollout.Toml
