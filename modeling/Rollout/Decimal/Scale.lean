/-!
Doubles from a 64-bit significand and a power of ten, as JSON numbers are read.

The significand is rounded to a double first and then scaled: multiplied by a power of ten up to
`10 ^ 308`, or divided by such powers, at most one of them below `10 ^ 308`. The result is within a
few units in the last place of the decimal, and is exact as long as significand and power are.
-/
namespace Rollout.Decimal

/-- The largest power of ten that a double can hold. -/
def topPower : Nat := 308

/-- A power of ten as a double. -/
def tenTo (n : Nat) : Float := Float.ofScientific 1 false n

/-- Divides `times` times by the largest power of ten, or until nothing is left. -/
def shrink : Nat → Float → Float
  | 0, x => x
  | times + 1, x => if x == 0.0 then x else shrink times (x / tenTo topPower)

/-- `significand * 10 ^ exponent` as a double; `none` if it is beyond every double. -/
def scale? (significand : Nat) (exponent : Int) : Option Float :=
  let x := Float.ofNat significand
  if exponent < 0 then
    let size := (-exponent).toNat
    let times := (size - 1) / topPower
    some (shrink times x / tenTo (size - times * topPower))
  else if exponent ≤ topPower then
    let y := x * tenTo exponent.toNat
    if y.isInf then none else some y
  else if significand = 0 then some x
  else none

/-- The double nearest to `significand * 10 ^ exponent`, infinite if the decimal is too large. -/
def nearest (significand : Nat) (exponent : Int) : Float :=
  let power := (Nat.toDigits 10 significand).length + exponent
  if significand = 0 ∨ power < -400 then 0.0
  else if power > 400 then 1.0 / 0.0
  else Float.ofScientific significand (exponent < 0) exponent.natAbs

end Rollout.Decimal
