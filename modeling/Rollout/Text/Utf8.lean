/-!
UTF-8: reading bytes as text, strictly or with replacements.

The reader takes one byte at a time. Inside a character it remembers the value so far, how many
bytes are owed after the next one, and the range the next byte has to lie in; that range is what
rules out overlong forms, surrogates and values past the last code point. A lossy reading writes one
U+FFFD for each longest piece of bytes that begins a character but does not finish it.
-/
namespace Rollout.Text

/-- A run of bytes. -/
abbrev Bytes := List UInt8

namespace Utf8

/-- Where the reader stands. -/
inductive State where
  /-- Between two characters. -/
  | between
  /-- Inside a character, before a byte from `low` to `high` and then `owed` more bytes. -/
  | inside (value owed low high : Nat)
  deriving DecidableEq, Repr

/-- What a byte leads to. -/
inductive Step where
  | char (c : Char)
  | more (s : State)
  | refused
  deriving DecidableEq, Repr

/-- The first byte of a character. -/
def first (b : Nat) : Step :=
  if b < 0x80 then .char (Char.ofNat b)
  else if b < 0xC2 then .refused
  else if b < 0xE0 then .more (.inside (b - 0xC0) 0 0x80 0xBF)
  else if b = 0xE0 then .more (.inside 0 1 0xA0 0xBF)
  else if b = 0xED then .more (.inside 0xD 1 0x80 0x9F)
  else if b < 0xF0 then .more (.inside (b - 0xE0) 1 0x80 0xBF)
  else if b = 0xF0 then .more (.inside 0 2 0x90 0xBF)
  else if b < 0xF4 then .more (.inside (b - 0xF0) 2 0x80 0xBF)
  else if b = 0xF4 then .more (.inside 4 2 0x80 0x8F)
  else .refused

/-- The next byte, wherever the reader stands. -/
def step : State → Nat → Step
  | .between, b => first b
  | .inside value owed low high, b =>
    if low ≤ b ∧ b ≤ high then
      let value := value * 64 + (b - 0x80)
      match owed with
      | 0 => .char (Char.ofNat value)
      | owed + 1 => .more (.inside value owed 0x80 0xBF)
    else .refused

/-- Reads the rest of a text, from wherever the reader stands. -/
def decodeFrom? : State → Bytes → Option (List Char)
  | .between, [] => some []
  | .inside .., [] => none
  | s, b :: bs =>
    match step s b.toNat with
    | .char c => (decodeFrom? .between bs).map (c :: ·)
    | .more s' => decodeFrom? s' bs
    | .refused => none

/-- The character that stands for bytes which are no text. -/
def replacement : Char := '\uFFFD'

/-- Reads the rest of a text and replaces what is none. A byte that breaks a character off is read
again as the first byte of the next. -/
def decodeLossyFrom : State → Bytes → List Char
  | .between, [] => []
  | .inside .., [] => [replacement]
  | .between, b :: bs =>
    match first b.toNat with
    | .char c => c :: decodeLossyFrom .between bs
    | .more s => decodeLossyFrom s bs
    | .refused => replacement :: decodeLossyFrom .between bs
  | .inside value owed low high, b :: bs =>
    match step (.inside value owed low high) b.toNat with
    | .char c => c :: decodeLossyFrom .between bs
    | .more s => decodeLossyFrom s bs
    | .refused =>
      replacement ::
        match first b.toNat with
        | .char c => c :: decodeLossyFrom .between bs
        | .more s => decodeLossyFrom s bs
        | .refused => replacement :: decodeLossyFrom .between bs

end Utf8

/-- The text that the bytes encode, if they are UTF-8. -/
def decode? (bs : Bytes) : Option (List Char) := Utf8.decodeFrom? .between bs

/-- The text that the bytes encode, with U+FFFD for each piece that is no UTF-8. -/
def decodeLossy (bs : Bytes) : List Char := Utf8.decodeLossyFrom .between bs

/-- The UTF-8 form of a text. -/
def encode (s : List Char) : Bytes := s.flatMap String.utf8EncodeChar

/-- Bytes below 128 are the characters of the same number. -/
theorem decode?_ascii {s : List Char} (h : ∀ c ∈ s, c.toNat < 0x80) :
    decode? (s.map fun c => c.toNat.toUInt8) = some s := by
  induction s with
  | nil => rfl
  | cons c s ih =>
    have hc : c.toNat < 0x80 := h c List.mem_cons_self
    have hb : c.toNat.toUInt8.toNat = c.toNat := by
      rw [Nat.toUInt8_eq, UInt8.toNat_ofNat']
      exact Nat.mod_eq_of_lt (by omega)
    have hs := ih fun d hd => h d (List.mem_cons_of_mem _ hd)
    simp only [decode?] at hs ⊢
    simp only [List.map_cons, Utf8.decodeFrom?, Utf8.step, Utf8.first, hb, if_pos hc, hs]
    simp [Char.ofNat_toNat]

/-- Characters below 128 are the bytes of the same number. -/
theorem encode_ascii {s : List Char} (h : ∀ c ∈ s, c.toNat < 0x80) :
    encode s = s.map fun c => c.toNat.toUInt8 := by
  induction s with
  | nil => rfl
  | cons c s ih =>
    have hc : c.val.toNat ≤ 127 := Nat.le_of_lt_succ (h c List.mem_cons_self)
    have hs := ih fun d hd => h d (List.mem_cons_of_mem _ hd)
    simp only [encode] at hs ⊢
    rw [List.flatMap_cons, List.map_cons, hs]
    simp only [String.utf8EncodeChar, if_pos hc]
    rfl

/-- Where the strict reading succeeds the lossy one replaces nothing. -/
theorem decodeLossyFrom_of_decodeFrom? {s : Utf8.State} {bs : Bytes} {t : List Char}
    (h : Utf8.decodeFrom? s bs = some t) : Utf8.decodeLossyFrom s bs = t := by
  induction bs generalizing s t with
  | nil => cases s <;> simp_all [Utf8.decodeFrom?, Utf8.decodeLossyFrom]
  | cons b bs ih =>
    cases s with
    | between =>
      simp only [Utf8.decodeFrom?, Utf8.step] at h
      simp only [Utf8.decodeLossyFrom]
      split at h <;> simp_all [Option.map_eq_some_iff]
      obtain ⟨u, hu, rfl⟩ := h
      rw [ih hu]
    | inside value owed low high =>
      simp only [Utf8.decodeFrom?] at h
      simp only [Utf8.decodeLossyFrom]
      split at h <;> simp_all [Option.map_eq_some_iff]
      obtain ⟨u, hu, rfl⟩ := h
      rw [ih hu]

theorem decodeLossy_of_decode? {bs : Bytes} {t : List Char} (h : decode? bs = some t) :
    decodeLossy bs = t :=
  decodeLossyFrom_of_decodeFrom? h

end Rollout.Text
