import Rollout.Json.Basic

/-!
Records in JSON: reading the fields of a structure.

A record is an object with the fields by name, in any order and among fields of other names, or an
array of the values of its fields in order. A field named twice makes an object unreadable, a value
too many an array. What an absent field means depends on the field, and on whether it is absent from
an object or cut off an array.
-/
namespace Rollout.Json

/-- What a record has for a field. -/
inductive Slot where
  | given (v : Json)
  /-- The object has no field of that name. -/
  | unnamed
  /-- The array ends before that field. -/
  | cutOff

/-- What an object has for a field. -/
def Slot.ofNamed (name : String) (members : List (String × Json)) : Slot :=
  match members.lookup name with
  | some v => .given v
  | none => .unnamed

/-- What an array has for each of some fields in order. -/
def Slot.ofPlaces : List String → List Json → List Slot
  | [], _ => []
  | _ :: names, [] => .cutOff :: ofPlaces names []
  | _ :: names, v :: vs => .given v :: ofPlaces names vs

/-- No field of a record is named twice. -/
def namedOnce (names : List String) (members : List (String × Json)) : Bool :=
  names.all fun name => (members.filter fun m => m.1 == name).length ≤ 1

/-- What a value has for each field of a record, if it is a record with these fields. -/
def slots? (names : List String) : Json → Option (List Slot)
  | .obj members =>
    if namedOnce names members then some (names.map (Slot.ofNamed · members)) else none
  | .arr items => if items.length ≤ names.length then some (Slot.ofPlaces names items) else none
  | _ => none

/-- A field that must be there. -/
def Slot.required {α : Type} (read : Json → Option α) : Slot → Option α
  | .given v => read v
  | _ => none

/-- A value that may be null, for nothing. -/
def nullable? {α : Type} (read : Json → Option α) : Json → Option (Option α)
  | .null => some none
  | v => (read v).map some

/-- A field that an object may leave out; null is the same as nothing. -/
def Slot.optional {α : Type} (read : Json → Option α) : Slot → Option (Option α)
  | .given v => nullable? read v
  | .unnamed => some none
  | .cutOff => none

/-- A field with a default for when it is left out. -/
def Slot.withDefault {α : Type} (default : α) (read : Json → Option α) : Slot → Option α
  | .given v => read v
  | _ => some default

def string? : Json → Option String
  | .str s => some s
  | _ => none

/-- A double; integers are read as doubles too. -/
def float? : Json → Option Float
  | .float x => some x
  | .int n => some (Float.ofInt n)
  | _ => none

/-- A 32-bit signed integer. -/
def int32? : Json → Option Int
  | .int n => if -0x80000000 ≤ n ∧ n < 0x80000000 then some n else none
  | _ => none

def list? {α : Type} (read : Json → Option α) : Json → Option (List α)
  | .arr items => items.mapM read
  | _ => none

/-- The name of a choice, written as a string or as an object of that one name and null. -/
def choice? : Json → Option String
  | .str s => some s
  | .obj [(name, .null)] => some name
  | _ => none

end Rollout.Json
