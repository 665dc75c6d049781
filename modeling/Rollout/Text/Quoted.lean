import Rollout.Text.Printable

/-!
Quoted texts inside messages.

A quoted text stands between double quotes. The quote, the backslash, the usual control characters
and NUL have an escape of one letter; every other character that is not printable is written by its
code point. A single quote stays as it is.
-/
namespace Rollout.Text

/-- A code point in lower-case hexadecimal between braces. -/
def pointEscape (c : Char) : List Char :=
  ['\\', 'u', '\x7b'] ++ Nat.toDigits 16 c.toNat ++ ['\x7d']

/-- A character inside a quoted text. -/
def quoteChar (c : Char) : List Char :=
  if c = '"' then ['\\', '"']
  else if c = '\\' then ['\\', '\\']
  else if c = '\n' then ['\\', 'n']
  else if c = '\r' then ['\\', 'r']
  else if c = '\t' then ['\\', 't']
  else if c = '\x00' then ['\\', '0']
  else if 0x20 ≤ c.toNat ∧ c.toNat < 0x7F then [c]
  else if isPrintable c then [c]
  else pointEscape c

/-- A text between quotes. -/
def quote (s : String) : String := String.ofList ('"' :: s.toList.flatMap quoteChar ++ ['"'])

/-- Texts in brackets, with a comma and a space between two of them. -/
def bracketed (items : List String) : String := "[" ++ ", ".intercalate items ++ "]"

/-- A text that may be missing, quoted. -/
def quoteOption : Option String → String
  | none => "None"
  | some s => s!"Some({quote s})"

end Rollout.Text
