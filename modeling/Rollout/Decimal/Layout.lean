import Rollout.Decimal.Shortest

/-!
How a double is laid out as text, in prose and in JSON.

Prose never uses an exponent and writes a whole number without a point. JSON keeps `.0` on a whole
number, writes sizes from `1e-5` up to but not including `1e16` in plain notation, and everything
else with an exponent.
-/
namespace Rollout.Decimal

/-- Digits and a power of ten without an exponent, with `fraction` after a whole number. -/
def positional (ds : List Char) (e : Int) (fraction : List Char) : List Char :=
  if 0 ≤ e then ds ++ List.replicate e.toNat '0' ++ fraction
  else
    let places := (-e).toNat
    if places < ds.length then
      ds.take (ds.length - places) ++ '.' :: ds.drop (ds.length - places)
    else '0' :: '.' :: (List.replicate (places - ds.length) '0' ++ ds)

/-- Digits with a point after the first and an exponent. -/
def scientific (ds : List Char) (e : Int) : List Char :=
  let power := e + ds.length - 1
  let tail := match ds.drop 1 with
    | [] => []
    | rest => '.' :: rest
  ds.take 1 ++ tail ++ 'e' :: (toString power).toList

private def signed (negative : Bool) (s : List Char) : String :=
  String.ofList (if negative then '-' :: s else s)

/-- A double inside a message. -/
def prose (x : Float) : String :=
  match FloatText.ofFloat x with
  | .nan => "NaN"
  | .infinite negative => signed negative ['i', 'n', 'f']
  | .finite negative ds e => signed negative (positional ds e [])

/-- A double as a JSON number; one that is not finite has none. -/
def jsonNumber? (x : Float) : Option String :=
  match FloatText.ofFloat x with
  | .nan => none
  | .infinite _ => none
  | .finite negative ds e =>
    let power := e + ds.length - 1
    if ds = ['0'] ∨ -5 ≤ power ∧ power < 16 then some (signed negative (positional ds e ['.', '0']))
    else some (signed negative (scientific ds e))

end Rollout.Decimal
