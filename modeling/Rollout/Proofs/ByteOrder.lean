import Mathlib.Tactic.SplitIfs
import Rollout.Proofs.Text

/-!
The order of texts is that of their bytes.

Texts are compared character by character, and in UTF-8 this is what comparing byte by byte comes
to: a character whose form is longer begins with a greater byte, and of two forms of one length the
first group of six bits that differs decides.
-/
namespace Rollout.Text

open Utf8

theorem ofNat_lt_ofNat {m n : Nat} (hm : m < 256) (hn : n < 256) :
    UInt8.ofNat m < UInt8.ofNat n ↔ m < n := by
  rw [UInt8.lt_iff_toNat_lt, toNat_byte hm, toNat_byte hn]

theorem ofNat_eq_ofNat {m n : Nat} (hm : m < 256) (hn : n < 256) :
    UInt8.ofNat m = UInt8.ofNat n ↔ m = n := by
  rw [ofNat_eq_iff hm, toNat_byte hn]

theorem toNat_lt_limit (c : Char) : c.val.toNat < 0x110000 := by
  rcases c.valid with h | h
  · exact h.trans (by decide)
  · exact h.2

/-- The forms of two characters are in the order of the characters, whatever follows them. -/
theorem encodeChar_append_lt {c d : Char} (h : c < d) (xs ys : Bytes) :
    String.utf8EncodeChar c ++ xs < String.utf8EncodeChar d ++ ys := by
  have hlt : c.val.toNat < d.val.toNat := h
  have hd := toNat_lt_limit d
  -- one number in base 64, of which the bytes are the digits
  have hsquare : ∀ k : Nat, k / 4096 = k / 64 / 64 := fun k =>
    (Nat.div_div_eq_div_mul k 64 64).symm
  have hcube : ∀ k : Nat, k / 262144 = k / 64 / 64 / 64 := fun k => by
    rw [Nat.div_div_eq_div_mul, Nat.div_div_eq_div_mul]
  simp only [String.utf8EncodeChar, hsquare, hcube]
  generalize c.val.toNat = m at *
  generalize d.val.toNat = n at *
  split_ifs <;>
    simp (disch := omega) only [List.cons_append, List.nil_append, List.cons_lt_cons_iff,
      ofNat_lt_ofNat, ofNat_eq_ofNat] <;>
    omega

/-- Texts in order have their UTF-8 forms in the order of the bytes. -/
theorem encode_lt_encode {s t : List Char} (h : s < t) : encode s < encode t := by
  induction s generalizing t with
  | nil =>
    cases t with
    | nil => exact absurd h (List.lt_irrefl [])
    | cons d t =>
      rw [encode_cons]
      obtain ⟨b, bs, hb⟩ := List.exists_cons_of_ne_nil (String.utf8EncodeChar_ne_nil (c := d))
      rw [hb]
      exact List.nil_lt_cons b _
  | cons c s ih =>
    cases t with
    | nil => exact absurd h (List.not_lt_nil _)
    | cons d t =>
      rw [encode_cons, encode_cons]
      rcases List.cons_lt_cons_iff.1 h with hlt | ⟨rfl, hrest⟩
      · exact encodeChar_append_lt hlt _ _
      · exact List.append_left_lt (ih hrest)

end Rollout.Text
