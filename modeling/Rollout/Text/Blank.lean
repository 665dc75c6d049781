/-!
Blank characters and trimming.

A text is a list of characters here, so that every reader below is a recursion on the text itself.
Trimming removes blank characters from both ends and nothing else.
-/
namespace Rollout.Text

/-- The characters with the Unicode property `White_Space`, as ranges of code points. -/
def blankRanges : List (Nat × Nat) :=
  [(0x09, 0x0D), (0x20, 0x20), (0x85, 0x85), (0xA0, 0xA0), (0x1680, 0x1680), (0x2000, 0x200A),
   (0x2028, 0x2029), (0x202F, 0x202F), (0x205F, 0x205F), (0x3000, 0x3000)]

/-- A code point lies in one of the ranges. -/
def inRanges (ranges : List (Nat × Nat)) (n : Nat) : Bool :=
  ranges.any fun r => r.1 ≤ n && n ≤ r.2

/-- Blank characters are the ones that trimming removes. -/
def isBlank (c : Char) : Bool := inRanges blankRanges c.toNat

def trimStart (s : List Char) : List Char := s.dropWhile isBlank

def trimEnd (s : List Char) : List Char := (s.reverse.dropWhile isBlank).reverse

/-- The text without the blank characters at its ends. -/
def trim (s : List Char) : List Char := trimEnd (trimStart s)

/-- What is left of a text after a prefix it starts with. -/
def afterPrefix? : List Char → List Char → Option (List Char)
  | [], s => some s
  | _ :: _, [] => none
  | p :: ps, c :: cs => if p = c then afterPrefix? ps cs else none

/-- What is left of a text before a suffix it ends with. -/
def beforeSuffix? (suffix s : List Char) : Option (List Char) :=
  (afterPrefix? suffix.reverse s.reverse).map List.reverse

theorem dropWhile_isBlank {s : List Char} (h : ∀ c ∈ s, isBlank c = false) :
    s.dropWhile isBlank = s := by
  cases s with
  | nil => rfl
  | cons c s => exact List.dropWhile_cons_of_neg (by simp [h c List.mem_cons_self])

/-- Trimming leaves a text as it is if none of its characters is blank. -/
theorem trim_eq_self {s : List Char} (h : ∀ c ∈ s, isBlank c = false) : trim s = s := by
  rw [trim, trimStart, dropWhile_isBlank h, trimEnd,
    dropWhile_isBlank fun c hc => h c (List.mem_reverse.1 hc), List.reverse_reverse]

theorem afterPrefix?_append (p s : List Char) : afterPrefix? p (p ++ s) = some s := by
  induction p with
  | nil => rfl
  | cons c p ih => simp [afterPrefix?, ih]

theorem eq_append_of_afterPrefix? {p s r : List Char} (h : afterPrefix? p s = some r) :
    s = p ++ r := by
  induction p generalizing s with
  | nil => simpa [afterPrefix?] using h
  | cons c p ih =>
    cases s with
    | nil => simp [afterPrefix?] at h
    | cons d s =>
      by_cases hcd : c = d
      · subst hcd
        simp only [afterPrefix?, if_true] at h
        rw [ih h, List.cons_append]
      · simp [afterPrefix?, hcd] at h

end Rollout.Text
