/-!
Random identifiers in their usual text form: 32 hexadecimal digits in groups of eight, four, four,
four and twelve. Six of the 128 bits say that the others are random.
-/
namespace Rollout.Uuid

/-- The count of random bits. -/
def randomBits : Nat := 122

/-- The hexadecimal digits of a number, `count` of them, the last ones if there are more. -/
def hexDigits : Nat → Nat → List Char
  | 0, _ => []
  | count + 1, n => hexDigits count (n / 16) ++ [Nat.digitChar (n % 16)]

/-- The identifier with these random bits. The third group starts with a four and the fourth with
the bits `10`, which together mean that the rest is random. -/
def text (bits : Nat) : String :=
  let (head, tail) := (bits / Nat.pow 2 62, bits % Nat.pow 2 62)
  String.ofList (hexDigits 8 (head / Nat.pow 2 28) ++ '-' :: hexDigits 4 (head / Nat.pow 2 12) ++
    '-' :: '4' :: hexDigits 3 head ++ '-' :: hexDigits 4 (Nat.pow 2 15 + tail / Nat.pow 2 48) ++
    '-' :: hexDigits 12 tail)

/-- The identifier that is drawn after `n` others from a random start. -/
def drawn (start n : Nat) : String := text ((start + n) % Nat.pow 2 randomBits)

end Rollout.Uuid
