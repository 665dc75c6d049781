import Rollout.Decimal.Natural

/-!
The shortest decimal of a double.

A finite double stands for an exact number `m * 2 ^ q`, and every real number between the middles to
its two neighbours rounds to it; the middles themselves do if `m` is even. Of the decimals in that
interval the ones with the fewest digits are wanted, and of those the nearest. Each count of digits
spans a grid of decimals; if a point of a grid lies in the interval, then one of the two grid points
beside the number does, so only these two are tested. All arithmetic is on natural numbers.
-/
namespace Rollout.Decimal

/-- A positive number `mantissa * 2 ^ exponent` that a double holds exactly. -/
structure Binary where
  mantissa : Nat
  exponent : Int
  /-- The gap to the next double below is half the gap to the next one above. -/
  atPowerOfTwo : Bool
  deriving DecidableEq, Repr

/-- The exact value of the size of a finite double that is not zero. -/
def Binary.ofFloat (x : Float) : Binary :=
  let bits := x.toBits.toNat
  let fraction : Nat := bits % Nat.pow 2 52
  let power : Nat := bits / Nat.pow 2 52 % Nat.pow 2 11
  if power = 0 then ⟨fraction, -1074, false⟩
  else ⟨Nat.pow 2 52 + fraction, (power : Int) - 1075, fraction = 0 && power > 1⟩

/-- A quotient of natural numbers. -/
structure Ratio where
  num : Nat
  den : Nat
  deriving DecidableEq, Repr

/-- `n * 2 ^ e` as a quotient. -/
def Ratio.binary (n : Nat) (e : Int) : Ratio := ⟨n * Nat.pow 2 e.toNat, Nat.pow 2 (-e).toNat⟩

/-- `n * 10 ^ e` as a quotient. -/
def Ratio.decimal (n : Nat) (e : Int) : Ratio := ⟨n * Nat.pow 10 e.toNat, Nat.pow 10 (-e).toNat⟩

def Ratio.le (a b : Ratio) : Bool := a.num * b.den ≤ b.num * a.den

def Ratio.lt (a b : Ratio) : Bool := a.num * b.den < b.num * a.den

/-- The numbers that round to one double. -/
structure RoundingInterval where
  low : Ratio
  high : Ratio
  /-- The two ends belong to the interval. -/
  closed : Bool

def RoundingInterval.ofBinary (b : Binary) : RoundingInterval :=
  { low :=
      if b.atPowerOfTwo then .binary (4 * b.mantissa - 1) (b.exponent - 2)
      else .binary (2 * b.mantissa - 1) (b.exponent - 1)
    high := .binary (2 * b.mantissa + 1) (b.exponent - 1)
    closed := b.mantissa % 2 = 0 }

def RoundingInterval.contains (i : RoundingInterval) (r : Ratio) : Bool :=
  if i.closed then i.low.le r && r.le i.high else i.low.lt r && r.lt i.high

/-- A decimal `digits * 10 ^ exponent`. -/
structure Scaled where
  digits : Nat
  exponent : Int
  deriving DecidableEq, Repr

def Scaled.ratio (s : Scaled) : Ratio := .decimal s.digits s.exponent

/-- The least count, up to `fuel`, of factors ten that take `num` to `den` or beyond. -/
def factorsOfTen : Nat → Nat → Nat → Nat
  | 0, _, _ => 0
  | fuel + 1, num, den => if den ≤ num then 0 else factorsOfTen fuel (10 * num) den + 1

/-- The power of ten that a positive number reaches: `10 ^ e ≤ r < 10 ^ (e + 1)`. -/
def Ratio.magnitude (r : Ratio) : Int :=
  if r.den ≤ r.num then ((digits (r.num / r.den)).length : Int) - 1
  else -(factorsOfTen 400 r.num r.den : Int)

/-- The largest point of the grid of `10 ^ e` that is not above `r`, as a count of steps. -/
def Ratio.floorOn (r : Ratio) (e : Int) : Nat :=
  r.num * Nat.pow 10 (-e).toNat / (r.den * Nat.pow 10 e.toNat)

/-- Whether `r` is nearer to the grid point `n + 1` than to `n`, or as near. -/
def Ratio.roundsUpOn (r : Ratio) (n : Nat) (e : Int) : Bool :=
  (Ratio.decimal (2 * n + 1) e).le ⟨2 * r.num, r.den⟩

/-- The best decimal on one grid, if one of the two points beside the number is in the interval. -/
def nearestOn? (i : RoundingInterval) (r : Ratio) (e : Int) : Option Scaled :=
  let n := r.floorOn e
  let below : Scaled := ⟨n, e⟩
  let above : Scaled := ⟨n + 1, e⟩
  match i.contains below.ratio, i.contains above.ratio with
  | true, true => some (if r.roundsUpOn n e then above else below)
  | true, false => some below
  | false, true => some above
  | false, false => none

/-- The decimal with the fewest digits that rounds to the number; seventeen always suffice. -/
def Binary.shortest (b : Binary) : Scaled :=
  let i := RoundingInterval.ofBinary b
  let r := Ratio.binary b.mantissa b.exponent
  let top := r.magnitude
  ((List.range 17).findSome? fun (k : Nat) => nearestOn? i r (top - k)).getD
    ⟨r.floorOn (top - 16), top - 16⟩

/-- The digits of a decimal without trailing zeros, and the power of ten of the last one. -/
def Scaled.stripped (s : Scaled) : List Char × Int :=
  let reversed := (Decimal.digits s.digits).reverse
  let kept := reversed.dropWhile (· == '0')
  (kept.reverse, s.exponent + ((reversed.length : Int) - kept.length))

/-- A number as a text reads it: not a number, infinite, or a sign and a decimal. -/
inductive FloatText where
  | nan
  | infinite (negative : Bool)
  | finite (negative : Bool) (digits : List Char) (exponent : Int)
  deriving DecidableEq, Repr

/-- The shortest decimal of a double; zero has the digit `0`. -/
def FloatText.ofFloat (x : Float) : FloatText :=
  let negative := x.toBits.toNat / Nat.pow 2 63 = 1
  if x.isNaN then .nan
  else if x.isInf then .infinite negative
  else if x.toBits.toNat % Nat.pow 2 63 = 0 then .finite negative ['0'] 0
  else
    let (ds, e) := (Binary.ofFloat x).shortest.stripped
    .finite negative ds e

end Rollout.Decimal
