/-!
Natural numbers in decimal: reading a run of digits, and the range of a 64-bit word.
-/
namespace Rollout.Decimal

/-- The number that one or more ASCII digits stand for; leading zeros are allowed. -/
def natural? (s : List Char) : Option Nat :=
  if !s.isEmpty && s.all Char.isDigit then some (Nat.ofDigitChars 10 s 0) else none

/-- The numbers that a 64-bit word can hold are the ones below this. -/
def wordLimit : Nat := 0x10000000000000000

/-- The text of a 64-bit word: an optional plus sign, then digits of a number in range. -/
def word? (s : List Char) : Option Nat :=
  let digits := match s with
    | '+' :: r => r
    | _ => s
  (natural? digits).filter (· < wordLimit)

/-- The decimal digits of a number, without leading zeros. -/
def digits (n : Nat) : List Char := Nat.toDigits 10 n

theorem digits_ne_nil (n : Nat) : digits n ≠ [] := Nat.toDigits_ne_nil

theorem isDigit_of_mem_digits {n : Nat} {c : Char} (h : c ∈ digits n) : c.isDigit = true :=
  Nat.isDigit_of_mem_toDigits (by decide) (by decide) h

/-- Reading the digits of a number gives the number. -/
theorem natural?_digits (n : Nat) : natural? (digits n) = some n := by
  have hall : (digits n).all Char.isDigit = true :=
    List.all_eq_true.2 fun c h => isDigit_of_mem_digits h
  have hne : (digits n).isEmpty = false := by
    cases h : digits n with
    | nil => exact absurd h (digits_ne_nil n)
    | cons => rfl
  simp only [natural?, hne, hall, Bool.not_false, Bool.and_self, if_true]
  rw [digits, Nat.ofDigitChars_ten_toDigits]

/-- Reading the digits of a number in range as a word gives the number. -/
theorem word?_digits {n : Nat} (h : n < wordLimit) : word? (digits n) = some n := by
  have hsign : ∀ r, digits n ≠ '+' :: r := by
    intro r heq
    have hdigit : '+'.isDigit = true :=
      isDigit_of_mem_digits (heq ▸ List.mem_cons_self : '+' ∈ digits n)
    exact absurd hdigit (by decide)
  simp only [word?]
  rw [natural?_digits, Option.filter_some, if_pos (by simpa using h)]

end Rollout.Decimal
