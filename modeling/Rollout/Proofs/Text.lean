import Mathlib.Data.List.TakeWhile
import Rollout.Decimal.Natural
import Rollout.Text.Blank
import Rollout.Text.Utf8

/-!
Texts as they are read.

Three readers are told by what they accept. Trimming takes exactly the blank characters off both
ends. Bytes are read as exactly the text whose UTF-8 form they are: the range that the second byte
of a character is held to is what makes the form unique. A word is a run of digits, perhaps behind a
plus sign, of a number below the limit.
-/
namespace Rollout.Text

/-! ### Trimming -/

/-- The text has a blank character at neither end. -/
structure Trimmed (s : List Char) : Prop where
  head : ∀ c ∈ s.head?, isBlank c = false
  last : ∀ c ∈ s.getLast?, isBlank c = false

theorem trimStart_append {blanks s : List Char} (h : ∀ c ∈ blanks, isBlank c = true) :
    trimStart (blanks ++ s) = trimStart s :=
  List.dropWhile_append_of_pos h

theorem trimStart_eq_self {s : List Char} (h : ∀ c ∈ s.head?, isBlank c = false) :
    trimStart s = s := by
  cases s with
  | nil => rfl
  | cons c s => exact List.dropWhile_cons_of_neg (by simp [h c rfl])

theorem trimEnd_eq_reverse (s : List Char) : trimEnd s = (trimStart s.reverse).reverse := rfl

theorem trimEnd_append {s blanks : List Char} (hblank : ∀ c ∈ blanks, isBlank c = true)
    (hlast : ∀ c ∈ s.getLast?, isBlank c = false) : trimEnd (s ++ blanks) = s := by
  rw [trimEnd_eq_reverse, List.reverse_append,
    trimStart_append fun c hc => hblank c (List.mem_reverse.1 hc),
    trimStart_eq_self (by rwa [List.head?_reverse]), List.reverse_reverse]

theorem exists_trimStart (s : List Char) : ∃ blanks, (∀ c ∈ blanks, isBlank c = true) ∧
    s = blanks ++ trimStart s ∧ ∀ c ∈ (trimStart s).head?, isBlank c = false := by
  refine ⟨s.takeWhile isBlank, fun c hc => List.mem_takeWhile_imp hc,
    List.takeWhile_append_dropWhile.symm, fun c hc => ?_⟩
  have hnot := List.head?_dropWhile_not isBlank s
  rw [show s.dropWhile isBlank = trimStart s from rfl, hc] at hnot
  exact Bool.eq_false_iff.2 (by simpa using hnot)

/-- Trimming takes blank characters off both ends, and all of them. -/
theorem trim_eq_iff {s t : List Char} : trim s = t ↔ Trimmed t ∧ ∃ before after,
    (∀ c ∈ before, isBlank c = true) ∧ (∀ c ∈ after, isBlank c = true) ∧
      s = before ++ t ++ after := by
  constructor
  · rintro rfl
    obtain ⟨before, hbefore, hs, hhead⟩ := exists_trimStart s
    obtain ⟨after, hafter, hrev, hlast⟩ := exists_trimStart (trimStart s).reverse
    have hend : trimStart s = trim s ++ after.reverse := by
      rw [trim, trimEnd_eq_reverse, ← List.reverse_append, ← hrev, List.reverse_reverse]
    refine ⟨⟨fun c hc => hhead c ?_, fun c hc => hlast c ?_⟩, before, after.reverse, hbefore,
      fun c hc => hafter c (List.mem_reverse.1 hc), ?_⟩
    · rw [hend, List.head?_append, Option.mem_def.1 hc]
      rfl
    · rw [trim, trimEnd_eq_reverse, List.getLast?_reverse] at hc
      exact hc
    · rw [List.append_assoc, ← hend, ← hs]
  · rintro ⟨ht, before, after, hbefore, hafter, rfl⟩
    rw [trim, List.append_assoc, trimStart_append hbefore]
    cases t with
    | nil =>
      rw [List.nil_append, ← List.append_nil after, trimStart_append hafter]
      rfl
    | cons c t =>
      rw [trimStart_eq_self (by simpa using ht.head c rfl)]
      exact trimEnd_append hafter ht.last

theorem trimmed_of_forall {s : List Char} (h : ∀ c ∈ s, isBlank c = false) : Trimmed s :=
  ⟨fun c hc => h c (List.mem_of_mem_head? hc), fun c hc => h c (List.mem_of_mem_getLast? hc)⟩

/-- The visible ASCII characters are not blank. -/
theorem isBlank_of_visible {c : Char} (h : 0x20 < c.toNat ∧ c.toNat < 0x7F) :
    isBlank c = false := by
  simp only [isBlank, inRanges, blankRanges, List.any_cons, List.any_nil, Bool.or_eq_false_iff,
    Bool.and_eq_false_iff, decide_eq_false_iff_not, and_true]
  omega

theorem isBlank_of_isDigit {c : Char} (h : c.isDigit = true) : isBlank c = false := by
  simp only [Char.isDigit, Bool.and_eq_true, decide_eq_true_eq] at h
  have hlow : 48 ≤ c.toNat := h.1
  have hhigh : c.toNat ≤ 57 := h.2
  exact isBlank_of_visible ⟨by omega, by omega⟩

/-! ### UTF-8 -/

namespace Utf8

variable {value owed low high : Nat} {a b c d : UInt8} {bs : Bytes} {x : Char}
  {t : List Char}

theorem decodeFrom?_last (h : low ≤ b.toNat ∧ b.toNat ≤ high) :
    decodeFrom? (.inside value 0 low high) (b :: bs) =
      (decodeFrom? .between bs).map (Char.ofNat (value * 64 + (b.toNat - 0x80)) :: ·) := by
  simp only [decodeFrom?, step, if_pos h]

theorem decodeFrom?_more (h : low ≤ b.toNat ∧ b.toNat ≤ high) :
    decodeFrom? (.inside value (owed + 1) low high) (b :: bs) =
      decodeFrom? (.inside (value * 64 + (b.toNat - 0x80)) owed 0x80 0xBF) bs := by
  simp only [decodeFrom?, step, if_pos h]

/-- Inside a character there is a byte in the range. -/
theorem exists_byte (h : decodeFrom? (.inside value owed low high) bs = some t) :
    ∃ b rest, bs = b :: rest ∧ low ≤ b.toNat ∧ b.toNat ≤ high := by
  cases bs with
  | nil => cases h
  | cons b rest =>
    by_cases hrange : low ≤ b.toNat ∧ b.toNat ≤ high
    · exact ⟨b, rest, rfl, hrange⟩
    · simp only [decodeFrom?, step, if_neg hrange] at h
      cases h

/-- The last byte of a character, and the text behind it. -/
theorem exists_last (h : decodeFrom? (.inside value 0 low high) bs = some t) :
    ∃ b rest t', bs = b :: rest ∧ low ≤ b.toNat ∧ b.toNat ≤ high ∧
      t = Char.ofNat (value * 64 + (b.toNat - 0x80)) :: t' ∧
      decodeFrom? .between rest = some t' := by
  obtain ⟨b, rest, rfl, hlow, hhigh⟩ := exists_byte h
  rw [decodeFrom?_last ⟨hlow, hhigh⟩] at h
  obtain ⟨t', ht', rfl⟩ := Option.map_eq_some_iff.1 h
  exact ⟨b, rest, t', rfl, hlow, hhigh, rfl, ht'⟩

/-- A byte of a character before its last one. -/
theorem exists_more (h : decodeFrom? (.inside value (owed + 1) low high) bs = some t) :
    ∃ b rest, bs = b :: rest ∧ low ≤ b.toNat ∧ b.toNat ≤ high ∧
      decodeFrom? (.inside (value * 64 + (b.toNat - 0x80)) owed 0x80 0xBF) rest = some t := by
  obtain ⟨b, rest, rfl, hlow, hhigh⟩ := exists_byte h
  rw [decodeFrom?_more ⟨hlow, hhigh⟩] at h
  exact ⟨b, rest, rfl, hlow, hhigh, h⟩

theorem toNat_ofNat {n : Nat} (h : n.isValidChar) : (Char.ofNat n).val.toNat = n := by
  rw [Char.ofNat, dif_pos h]
  rfl

theorem ofNat_eq_iff {n : Nat} {b : UInt8} (h : n < 256) : UInt8.ofNat n = b ↔ n = b.toNat := by
  rw [← UInt8.toNat_inj, UInt8.toNat_ofNat', Nat.mod_eq_of_lt h]

theorem encode_one (ha : a.toNat < 0x80) :
    String.utf8EncodeChar (Char.ofNat a.toNat) = [a] := by
  have hval := toNat_ofNat (n := a.toNat) (by unfold Nat.isValidChar; omega)
  simp only [String.utf8EncodeChar, hval]
  rw [if_pos (by omega), List.cons.injEq, ofNat_eq_iff (by omega)]
  simp

theorem encode_two (ha : 0xC2 ≤ a.toNat ∧ a.toNat < 0xE0)
    (hb : 0x80 ≤ b.toNat ∧ b.toNat ≤ 0xBF) :
    String.utf8EncodeChar (Char.ofNat ((a.toNat - 0xC0) * 64 + (b.toNat - 0x80))) = [a, b] := by
  have hval := toNat_ofNat (n := (a.toNat - 0xC0) * 64 + (b.toNat - 0x80))
    (by unfold Nat.isValidChar; omega)
  simp only [String.utf8EncodeChar, hval]
  rw [if_neg (by omega), if_pos (by omega), List.cons.injEq, List.cons.injEq,
    ofNat_eq_iff (by omega), ofNat_eq_iff (by omega)]
  exact ⟨by omega, by omega, rfl⟩

theorem encode_three {n : Nat}
    (hn : n = ((a.toNat - 0xE0) * 64 + (b.toNat - 0x80)) * 64 + (c.toNat - 0x80))
    (ha : 0xE0 ≤ a.toNat ∧ a.toNat < 0xF0) (hb : 0x80 ≤ b.toNat ∧ b.toNat ≤ 0xBF)
    (hc : 0x80 ≤ c.toNat ∧ c.toNat ≤ 0xBF) (hlong : 0x800 ≤ n) (hvalid : n.isValidChar) :
    String.utf8EncodeChar (Char.ofNat n) = [a, b, c] := by
  simp only [String.utf8EncodeChar, toNat_ofNat hvalid]
  rw [if_neg (by omega), if_neg (by omega), if_pos (by omega)]
  simp only [List.cons.injEq]
  rw [ofNat_eq_iff (by omega), ofNat_eq_iff (by omega), ofNat_eq_iff (by omega)]
  exact ⟨by omega, by omega, by omega, trivial⟩

theorem encode_four {n : Nat}
    (hn : n = (((a.toNat - 0xF0) * 64 + (b.toNat - 0x80)) * 64 + (c.toNat - 0x80)) * 64 +
      (d.toNat - 0x80))
    (ha : 0xF0 ≤ a.toNat ∧ a.toNat ≤ 0xF4) (hb : 0x80 ≤ b.toNat ∧ b.toNat ≤ 0xBF)
    (hc : 0x80 ≤ c.toNat ∧ c.toNat ≤ 0xBF) (hd : 0x80 ≤ d.toNat ∧ d.toNat ≤ 0xBF)
    (hlong : 0x10000 ≤ n) (hvalid : n.isValidChar) :
    String.utf8EncodeChar (Char.ofNat n) = [a, b, c, d] := by
  have hlt : n < 0x110000 := by unfold Nat.isValidChar at hvalid; omega
  simp only [String.utf8EncodeChar, toNat_ofNat hvalid]
  rw [if_neg (by omega), if_neg (by omega), if_neg (by omega)]
  simp only [List.cons.injEq]
  rw [ofNat_eq_iff (by omega), ofNat_eq_iff (by omega), ofNat_eq_iff (by omega),
    ofNat_eq_iff (by omega)]
  exact ⟨by omega, by omega, by omega, by omega, trivial⟩

theorem toNat_byte {n : Nat} (h : n < 256) : (UInt8.ofNat n).toNat = n :=
  ((ofNat_eq_iff h).1 rfl).symm

/-! What the first byte of a character leads to. Where there are three bytes or more the range of
the second one keeps the character from being overlong, a surrogate or past the last code point. -/

theorem first_one {n : Nat} (h : n < 0x80) : first n = .char (Char.ofNat n) := if_pos h

theorem first_two {n : Nat} (h : 0xC2 ≤ n ∧ n < 0xE0) :
    first n = .more (.inside (n - 0xC0) 0 0x80 0xBF) := by
  simp only [first]
  rw [if_neg (by omega), if_neg (by omega), if_pos h.2]

theorem first_three {n : Nat} (h : 0xE0 ≤ n ∧ n < 0xF0) : ∃ low high,
    first n = .more (.inside (n - 0xE0) 1 low high) ∧ ∀ x, low ≤ x ∧ x ≤ high ↔
      0x80 ≤ x ∧ x ≤ 0xBF ∧ (n = 0xE0 → 0xA0 ≤ x) ∧ (n = 0xED → x ≤ 0x9F) := by
  simp only [first]
  rw [if_neg (by omega), if_neg (by omega), if_neg (by omega)]
  split_ifs with h1 h2 h3
  · exact ⟨_, _, by rw [h1], by omega⟩
  · exact ⟨_, _, by rw [h2], by omega⟩
  · exact ⟨_, _, rfl, by omega⟩
  all_goals omega

theorem first_four {n : Nat} (h : 0xF0 ≤ n ∧ n ≤ 0xF4) : ∃ low high,
    first n = .more (.inside (n - 0xF0) 2 low high) ∧ ∀ x, low ≤ x ∧ x ≤ high ↔
      0x80 ≤ x ∧ x ≤ 0xBF ∧ (n = 0xF0 → 0x90 ≤ x) ∧ (n = 0xF4 → x ≤ 0x8F) := by
  simp only [first]
  rw [if_neg (by omega), if_neg (by omega), if_neg (by omega), if_neg (by omega), if_neg (by omega),
    if_neg (by omega)]
  split_ifs with h1 h2 h3
  · exact ⟨_, _, by rw [h1], by omega⟩
  · exact ⟨_, _, rfl, by omega⟩
  · exact ⟨_, _, by rw [h3], by omega⟩
  · omega

theorem first_refused {n : Nat} (h : 0x80 ≤ n ∧ n < 0xC2 ∨ 0xF4 < n) : first n = .refused := by
  simp only [first]
  split_ifs <;> first | omega | rfl

theorem decodeFrom?_of_char (h : first a.toNat = .char x) :
    decodeFrom? .between (a :: bs) = (decodeFrom? .between bs).map (x :: ·) := by
  simp only [decodeFrom?, step, h]

theorem decodeFrom?_of_more {s : State} (h : first a.toNat = .more s) :
    decodeFrom? .between (a :: bs) = decodeFrom? s bs := by
  simp only [decodeFrom?, step, h]

theorem decodeFrom?_of_refused (h : first a.toNat = .refused) :
    decodeFrom? .between (a :: bs) = none := by
  simp only [decodeFrom?, step, h]

/-- What is read first of bytes that are text is the character whose form they begin with. -/
theorem exists_first (h : decodeFrom? .between (a :: bs) = some t) :
    ∃ x rest t', t = x :: t' ∧ a :: bs = String.utf8EncodeChar x ++ rest ∧
      decodeFrom? .between rest = some t' := by
  by_cases h1 : a.toNat < 0x80
  · rw [decodeFrom?_of_char (first_one h1)] at h
    obtain ⟨t', ht', rfl⟩ := Option.map_eq_some_iff.1 h
    exact ⟨_, bs, t', rfl, by rw [encode_one h1]; rfl, ht'⟩
  by_cases h2 : 0xC2 ≤ a.toNat ∧ a.toNat < 0xE0
  · rw [decodeFrom?_of_more (first_two h2)] at h
    obtain ⟨b, rest, t', rfl, hb, hb', rfl, ht'⟩ := exists_last h
    exact ⟨_, rest, t', rfl, by rw [encode_two h2 ⟨hb, hb'⟩]; rfl, ht'⟩
  by_cases h3 : 0xE0 ≤ a.toNat ∧ a.toNat < 0xF0
  · obtain ⟨low, high, hfirst, hrange⟩ := first_three h3
    rw [decodeFrom?_of_more hfirst] at h
    obtain ⟨b, bs, rfl, hb, hb', h⟩ := exists_more h
    obtain ⟨c, rest, t', rfl, hc, hc', rfl, ht'⟩ := exists_last h
    have hb := (hrange b.toNat).1 ⟨hb, hb'⟩
    refine ⟨_, rest, t', rfl, ?_, ht'⟩
    rw [encode_three (a := a) (b := b) (c := c) rfl h3 (by omega) ⟨hc, hc'⟩ (by omega)]
    · rfl
    · unfold Nat.isValidChar
      omega
  by_cases h4 : 0xF0 ≤ a.toNat ∧ a.toNat ≤ 0xF4
  · obtain ⟨low, high, hfirst, hrange⟩ := first_four h4
    rw [decodeFrom?_of_more hfirst] at h
    obtain ⟨b, bs, rfl, hb, hb', h⟩ := exists_more h
    obtain ⟨c, bs, rfl, hc, hc', h⟩ := exists_more h
    obtain ⟨d, rest, t', rfl, hd, hd', rfl, ht'⟩ := exists_last h
    have hb := (hrange b.toNat).1 ⟨hb, hb'⟩
    refine ⟨_, rest, t', rfl, ?_, ht'⟩
    rw [encode_four (a := a) (b := b) (c := c) (d := d) rfl h4 (by omega) ⟨hc, hc'⟩ ⟨hd, hd'⟩
      (by omega)]
    · rfl
    · unfold Nat.isValidChar
      omega
  · rw [decodeFrom?_of_refused (first_refused (by omega))] at h
    cases h

/-- The form of a character is read as the character, whatever follows it. -/
theorem decodeFrom?_encodeChar (x : Char) (bs : Bytes) :
    decodeFrom? .between (String.utf8EncodeChar x ++ bs) =
      (decodeFrom? .between bs).map (x :: ·) := by
  have hvalid : x.val.toNat.isValidChar := x.valid
  have hx : Char.ofNat x.val.toNat = x := Char.ofNat_toNat x
  unfold Nat.isValidChar at hvalid
  generalize hv : x.val.toNat = v at hx hvalid
  have htail (n : Nat) : (UInt8.ofNat (n % 64 + 128)).toNat = n % 64 + 128 := toNat_byte (by omega)
  simp only [String.utf8EncodeChar, hv]
  split_ifs with h1 h2 h3
  · have hhead : (UInt8.ofNat v).toNat = v := toNat_byte (by omega)
    have hfirst := first_one (n := v) (by omega)
    rw [hx, ← hhead] at hfirst
    exact decodeFrom?_of_char hfirst
  · have hhead : (UInt8.ofNat (v / 64 % 32 + 192)).toNat = v / 64 % 32 + 192 :=
      toNat_byte (by omega)
    have hfirst := first_two (n := v / 64 % 32 + 192) (by omega)
    rw [← hhead] at hfirst
    simp only [List.cons_append, List.nil_append]
    rw [decodeFrom?_of_more hfirst, decodeFrom?_last (by rw [htail]; omega), hhead, htail,
      show (v / 64 % 32 + 192 - 192) * 64 + (v % 64 + 128 - 128) = v by omega, hx]
  · have hhead : (UInt8.ofNat (v / 4096 % 16 + 224)).toNat = v / 4096 % 16 + 224 :=
      toNat_byte (by omega)
    obtain ⟨low, high, hfirst, hrange⟩ := first_three (n := v / 4096 % 16 + 224) (by omega)
    rw [← hhead] at hfirst
    simp only [List.cons_append, List.nil_append]
    rw [decodeFrom?_of_more hfirst, decodeFrom?_more ((hrange _).2 (by rw [htail]; omega)),
      decodeFrom?_last (by rw [htail]; omega), hhead, htail, htail,
      show ((v / 4096 % 16 + 224 - 224) * 64 + (v / 64 % 64 + 128 - 128)) * 64 +
        (v % 64 + 128 - 128) = v by omega, hx]
  · have hhead : (UInt8.ofNat (v / 262144 % 8 + 240)).toNat = v / 262144 % 8 + 240 :=
      toNat_byte (by omega)
    obtain ⟨low, high, hfirst, hrange⟩ := first_four (n := v / 262144 % 8 + 240) (by omega)
    rw [← hhead] at hfirst
    simp only [List.cons_append, List.nil_append]
    rw [decodeFrom?_of_more hfirst, decodeFrom?_more ((hrange _).2 (by rw [htail]; omega)),
      decodeFrom?_more (by rw [htail]; omega), decodeFrom?_last (by rw [htail]; omega), hhead,
      htail, htail, htail,
      show (((v / 262144 % 8 + 240 - 240) * 64 + (v / 4096 % 64 + 128 - 128)) * 64 +
        (v / 64 % 64 + 128 - 128)) * 64 + (v % 64 + 128 - 128) = v by omega, hx]

end Utf8

theorem encode_cons (x : Char) (t : List Char) :
    encode (x :: t) = String.utf8EncodeChar x ++ encode t := List.flatMap_cons

/-- Bytes are read as exactly the text whose UTF-8 form they are. -/
theorem decode?_eq_some_iff {bs : Bytes} {t : List Char} : decode? bs = some t ↔ encode t = bs := by
  constructor
  · intro h
    induction t generalizing bs with
    | nil =>
      cases bs with
      | nil => rfl
      | cons a bs =>
        obtain ⟨x, rest, t', ht, -⟩ := Utf8.exists_first h
        cases ht
    | cons x t ih =>
      cases bs with
      | nil => cases h
      | cons a bs =>
        obtain ⟨x', rest, t', ht, hbs, hrest⟩ := Utf8.exists_first h
        cases ht
        rw [encode_cons, hbs, ih hrest]
  · rintro rfl
    induction t with
    | nil => rfl
    | cons x t ih =>
      rw [decode?] at ih ⊢
      rw [encode_cons, Utf8.decodeFrom?_encodeChar, ih]
      rfl

end Rollout.Text

namespace Rollout.Decimal

theorem natural?_eq_some_iff {s : List Char} {n : Nat} : natural? s = some n ↔
    s ≠ [] ∧ (∀ c ∈ s, c.isDigit = true) ∧ n = Nat.ofDigitChars 10 s 0 := by
  rw [natural?]
  split_ifs with h
  · rw [Bool.and_eq_true, Bool.not_eq_true', List.isEmpty_eq_false_iff, List.all_eq_true] at h
    rw [Option.some.injEq]
    exact ⟨fun heq => ⟨h.1, h.2, heq.symm⟩, fun heq => heq.2.2.symm⟩
  · refine iff_of_false not_false fun hs => h ?_
    rw [Bool.and_eq_true, Bool.not_eq_true', List.isEmpty_eq_false_iff, List.all_eq_true]
    exact ⟨hs.1, hs.2.1⟩

theorem word?_plus (s : List Char) : word? ('+' :: s) = (natural? s).filter (· < wordLimit) := rfl

theorem word?_of_head {s : List Char} (h : ∀ c ∈ s.head?, c ≠ '+') :
    word? s = (natural? s).filter (· < wordLimit) := by
  rw [word?]
  rintro r rfl
  exact h '+' rfl rfl

/-- A word is one or more digits of a number below the limit, with or without a plus sign. -/
theorem word?_eq_some_iff {s : List Char} {n : Nat} : word? s = some n ↔
    ∃ sign digits, s = sign ++ digits ∧ (sign = [] ∨ sign = ['+']) ∧ digits ≠ [] ∧
      (∀ c ∈ digits, c.isDigit = true) ∧ n = Nat.ofDigitChars 10 digits 0 ∧ n < wordLimit := by
  have hfilter (digits : List Char) : (natural? digits).filter (· < wordLimit) = some n ↔
      digits ≠ [] ∧ (∀ c ∈ digits, c.isDigit = true) ∧ n = Nat.ofDigitChars 10 digits 0 ∧
        n < wordLimit := by
    rw [Option.filter_eq_some_iff, natural?_eq_some_iff, decide_eq_true_iff, and_assoc, and_assoc]
  constructor
  · intro h
    by_cases hplus : ∃ digits, s = '+' :: digits
    · obtain ⟨digits, rfl⟩ := hplus
      rw [word?_plus, hfilter] at h
      exact ⟨['+'], digits, rfl, .inr rfl, h⟩
    · have hhead : ∀ c ∈ s.head?, c ≠ '+' := by
        rintro c hc rfl
        obtain ⟨digits, rfl⟩ := List.head?_eq_some_iff.1 hc
        exact hplus ⟨digits, rfl⟩
      rw [word?_of_head hhead, hfilter] at h
      exact ⟨[], s, rfl, .inl rfl, h⟩
  · rintro ⟨sign, digits, rfl, rfl | rfl, hdigits⟩
    · have hhead : ∀ c ∈ digits.head?, c ≠ '+' := by
        rintro c hc rfl
        exact absurd (hdigits.2.1 '+' (List.mem_of_mem_head? hc)) (by decide)
      rw [List.nil_append, word?_of_head hhead, hfilter]
      exact hdigits
    · exact (hfilter digits).2 hdigits

end Rollout.Decimal
