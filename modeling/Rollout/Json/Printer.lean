import Rollout.Json.Basic
import Rollout.Decimal.Layout

/-!
A JSON value as text, on one line without spaces.
-/
namespace Rollout.Json

/-- Four hexadecimal digits. -/
def hexFour (n : Nat) : List Char :=
  [n / 4096 % 16, n / 256 % 16, n / 16 % 16, n % 16].map Nat.digitChar

/-- A character inside a string: the quote, the backslash and control characters are escaped. -/
def escapeChar (c : Char) : List Char :=
  if c = '"' then ['\\', '"']
  else if c = '\\' then ['\\', '\\']
  else if c.toNat < 0x20 then '\\' :: 'u' :: hexFour c.toNat
  else [c]

def quoteText (s : String) : String :=
  String.ofList ('"' :: s.toList.flatMap escapeChar ++ ['"'])

mutual

/-- The text of a value; what has no form is written as null. -/
def render : Json → String
  | .null => "null"
  | .bool true => "true"
  | .bool false => "false"
  | .int n => toString n
  | .float x => (Decimal.jsonNumber? x).getD "null"
  | .str s => quoteText s
  | .arr items => "[" ++ ",".intercalate (renderItems items) ++ "]"
  | .obj members => "\x7b" ++ ",".intercalate (renderMembers members) ++ "\x7d"
  | .unusable => "null"

/-- The texts of the items of an array. -/
def renderItems : List Json → List String
  | [] => []
  | v :: vs => render v :: renderItems vs

/-- The texts of the members of an object. -/
def renderMembers : List (String × Json) → List String
  | [] => []
  | (key, v) :: rest => (quoteText key ++ ":" ++ render v) :: renderMembers rest

end

end Rollout.Json
