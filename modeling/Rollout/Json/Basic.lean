/-!
JSON values.

A text can be well formed and yet hold something that no reader can use: a number beyond every
double, a string that is no Unicode text, an object with such a string for a key. It is the value
`unusable`, which can be skipped over and never read.
-/
namespace Rollout

/-- A JSON value. The members of an object keep their order and may repeat a key. -/
inductive Json where
  | null
  | bool (b : Bool)
  | int (n : Int)
  | float (x : Float)
  | str (s : String)
  | arr (items : List Json)
  | obj (members : List (String × Json))
  | unusable
  deriving Inhabited

namespace Json

/-- The last value that an object has for a key. -/
def get? (key : String) : Json → Option Json
  | .obj members => members.reverse.lookup key
  | _ => none

/-- A number as a JSON value: the ones that are not finite have no form and are written as null. -/
def number (x : Float) : Json := if x.isFinite then .float x else .null

end Json

end Rollout
