import Rollout.Toml.Value

/-!
Records in TOML: reading the fields of a structure, each of which may be left out.

A record is a table with the fields by name among others, or an array of the values of its fields in
order, of which further items are passed over. A date is a record that leaves everything out.
-/
namespace Rollout.Toml

/-- What a table has for each of some fields. -/
def ofNamed (names : List String) (es : Entries) : List (Option Value) :=
  names.map fun name => es.lookup name

/-- What an array has for each of some fields in order. -/
def ofPlaces : List String → List Value → List (Option Value)
  | [], _ => []
  | _ :: names, [] => none :: ofPlaces names []
  | _ :: names, v :: vs => some v :: ofPlaces names vs

/-- What a value has for each field of a record, if it is a record. -/
def fields? (names : List String) : Value → Option (List (Option Value))
  | .table _ es => some (ofNamed names es)
  | .tables earlier last => some (ofPlaces names ((earlier ++ [last]).map (.table .header)))
  | .array vs => some (ofPlaces names vs)
  | .date => some (ofNamed names [])
  | _ => none

/-- A field that may be left out. -/
def field {α : Type} (default : α) (read : Value → Option α) : Option Value → Option α
  | some v => read v
  | none => some default

def text? : Value → Option String
  | .text s => some s
  | _ => none

/-- A double; integers are read as doubles too. -/
def double? : Value → Option Float
  | .float x => some x
  | .integer n => some (Float.ofInt n)
  | _ => none

end Rollout.Toml
