/-!
TOML values.

A table remembers how it came about, because that decides whether the text may add to it later on.
-/
namespace Rollout.Toml

/-- How a table came about. -/
inductive Origin where
  /-- On the way to the table of a header, without a header of its own. -/
  | passing
  /-- By a dotted key. -/
  | dotted
  /-- By its own header. -/
  | header
  /-- As a value between braces, which is complete. -/
  | inline
  deriving DecidableEq, Repr

/-- A TOML value. -/
inductive Value where
  | text (s : String)
  | integer (n : Int)
  | float (x : Float)
  | boolean (b : Bool)
  /-- A date, a time, or both; which one does not matter here. -/
  | date
  /-- An array written as a value. -/
  | array (items : List Value)
  | table (origin : Origin) (entries : List (String × Value))
  /-- An array of tables that have headers; the text can still add to the last one. -/
  | tables (earlier : List (List (String × Value))) (last : List (String × Value))
  deriving Inhabited

/-- The contents of a table. -/
abbrev Entries := List (String × Value)

/-- A reader of the head of a text: what it read, and the rest. -/
abbrev Reader (α : Type) := List Char → Option (α × List Char)

end Rollout.Toml
