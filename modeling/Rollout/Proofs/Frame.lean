import Mathlib.Data.List.TakeWhile
import Mathlib.Data.Nat.Digits.Defs
import Rollout.Frame

/-!
What a run of bytes is read as.

Everything hangs on the first newline. Once it has come the header before it is judged for good, and
bytes that come later change neither a record nor a fault. Without a newline nothing is judged but
the length of what has come. So a frame is read as its record whatever follows it, and no part of
it is a fault.
-/
namespace Rollout.Frame

open Text (Bytes)

variable {limit : Nat} {header bs r rest : Bytes} {f : Fault}

/-! ### The first newline -/

theorem split?_of_header (h : newline ∉ header) (rest : Bytes) :
    split? (header ++ newline :: rest) = some (header, rest) := by
  have hbefore : ∀ b ∈ header, (b != newline) = true :=
    fun b hb => bne_iff_ne.2 fun heq => h (heq ▸ hb)
  rw [split?, List.dropWhile_append_of_pos hbefore, List.takeWhile_append_of_pos hbefore]
  simp

theorem split?_of_notMem (h : newline ∉ bs) : split? bs = none := by
  have hdrop : bs.dropWhile (· != newline) = [] :=
    List.dropWhile_eq_nil_iff.2 fun b hb => bne_iff_ne.2 fun heq => h (heq ▸ hb)
  rw [split?, hdrop]

/-- With its newline a header decides what the bytes are, but for the bytes that are missing. -/
theorem read_of_header (limit : Nat) (h : newline ∉ header) (rest : Bytes) :
    read limit (header ++ newline :: rest) =
      match length? header with
      | none => .fault (badHeader header)
      | some n =>
        if limit < n then .fault (.tooLong n limit)
        else if rest.length < n then .incomplete
        else .record (rest.take n) (rest.drop n) := by
  have hsplit := split?_of_header h rest
  unfold read
  split
  · next hnone =>
    rw [hsplit] at hnone
    cases hnone
  · next hsome =>
    rw [hsplit] at hsome
    cases hsome
    rfl

theorem read_of_notMem (limit : Nat) (h : newline ∉ bs) : read limit bs =
    if headerLimit < bs.length then .fault (badHeader (bs.take headerLimit)) else .incomplete := by
  simp only [read, split?_of_notMem h]

/-- A record is read exactly from a header with its length, a newline and its bytes. -/
theorem read_eq_record_iff : read limit bs = .record r rest ↔
    ∃ header, newline ∉ header ∧ length? header = some r.length ∧ r.length ≤ limit ∧
      bs = header ++ newline :: (r ++ rest) := by
  constructor
  · intro h
    by_cases hmem : newline ∈ bs
    · obtain ⟨header, tail, rfl, hheader⟩ := List.eq_append_cons_of_mem hmem
      rw [read_of_header limit hheader] at h
      split at h
      · cases h
      · next n hn =>
        split at h
        · cases h
        · next hlimit =>
          split at h
          · cases h
          · next hcome =>
            cases h
            rw [List.length_take_of_le (Nat.le_of_not_lt hcome), List.take_append_drop]
            exact ⟨header, hheader, hn, Nat.le_of_not_lt hlimit, rfl⟩
    · rw [read_of_notMem limit hmem] at h
      split at h <;> cases h
  · rintro ⟨header, hheader, hlength, hlimit, rfl⟩
    rw [read_of_header limit hheader]
    simp [hlength, hlimit]

/-! ### More bytes -/

/-- Whatever follows it, a record that has come is read as the same record. -/
theorem read_of_record (h : read limit bs = .record r rest) :
    ∃ front, bs = front ++ rest ∧ ∀ other, read limit (front ++ other) = .record r other := by
  obtain ⟨header, hheader, hlength, hlimit, rfl⟩ := read_eq_record_iff.1 h
  exact ⟨header ++ newline :: r, by simp, fun other =>
    read_eq_record_iff.2 ⟨header, hheader, hlength, hlimit, by simp⟩⟩

/-- A fault behind a newline stays what it is when more bytes come. -/
theorem read_append_of_fault (hmem : newline ∈ bs) (h : read limit bs = .fault f) (more : Bytes) :
    read limit (bs ++ more) = .fault f := by
  obtain ⟨header, tail, rfl, hheader⟩ := List.eq_append_cons_of_mem hmem
  rw [read_of_header limit hheader] at h
  rw [List.append_assoc, List.cons_append, read_of_header limit hheader]
  split at h
  · exact h
  · next n hn =>
    split at h
    · next hlimit => exact (if_pos hlimit).trans h
    · split at h <;> cases h

/-! ### Frames -/

/-- The bytes before the newline in the frame of a record with this length. -/
def lengthHeader (n : Nat) : Bytes := Text.encode (Decimal.digits n)

theorem encode_eq (record : Bytes) :
    encode record = lengthHeader record.length ++ newline :: record := rfl

theorem toNat_of_mem_digits {n : Nat} {c : Char} (h : c ∈ Decimal.digits n) :
    48 ≤ c.toNat ∧ c.toNat ≤ 57 := by
  have hdigit := Decimal.isDigit_of_mem_digits h
  simp only [Char.isDigit, Bool.and_eq_true, decide_eq_true_eq] at hdigit
  exact hdigit

theorem lengthHeader_eq (n : Nat) :
    lengthHeader n = (Decimal.digits n).map fun c => c.toNat.toUInt8 :=
  Text.encode_ascii fun c hc => (toNat_of_mem_digits hc).2.trans_lt (by decide)

theorem newline_notMem_lengthHeader (n : Nat) : newline ∉ lengthHeader n := by
  rw [lengthHeader_eq, List.mem_map]
  rintro ⟨c, hc, heq⟩
  obtain ⟨hlow, hhigh⟩ := toNat_of_mem_digits hc
  have hnat : c.toNat.toUInt8.toNat = newline.toNat := congrArg UInt8.toNat heq
  rw [Nat.toUInt8_eq, UInt8.toNat_ofNat', Nat.mod_eq_of_lt (by omega)] at hnat
  have hten : newline.toNat = 10 := rfl
  omega

theorem isBlank_of_mem_digits {n : Nat} {c : Char} (h : c ∈ Decimal.digits n) :
    Text.isBlank c = false := by
  obtain ⟨hlow, hhigh⟩ := toNat_of_mem_digits h
  simp only [Text.isBlank, Text.inRanges, Text.blankRanges, List.any_cons, List.any_nil,
    Bool.or_eq_false_iff, Bool.and_eq_false_iff, decide_eq_false_iff_not, and_true]
  omega

/-- The header of a frame stands for the length of its record. -/
theorem length?_lengthHeader {n : Nat} (h : n < Decimal.wordLimit) :
    length? (lengthHeader n) = some n := by
  have hascii : ∀ c ∈ Decimal.digits n, c.toNat < 0x80 :=
    fun c hc => (toNat_of_mem_digits hc).2.trans_lt (by decide)
  rw [length?, lengthHeader_eq, Text.decode?_ascii hascii, Option.bind_some,
    Text.trim_eq_self fun c hc => isBlank_of_mem_digits hc, Decimal.word?_digits h]

/-- The digits of a word are no more than a header may have. -/
theorem length_lengthHeader_le {n : Nat} (h : n < Decimal.wordLimit) :
    (lengthHeader n).length ≤ headerLimit := by
  rw [lengthHeader_eq, List.length_map]
  exact Nat.toDigits_length 10 n headerLimit (by decide) (h.trans (by decide))

/-- A frame is read as its record, whatever follows it. -/
theorem read_encode_append (hlimit : limit < Decimal.wordLimit) (hfit : r.length ≤ limit)
    (rest : Bytes) : read limit (encode r ++ rest) = .record r rest :=
  read_eq_record_iff.2 ⟨lengthHeader r.length, newline_notMem_lengthHeader _,
    length?_lengthHeader (hfit.trans_lt hlimit), hfit, by simp [encode_eq]⟩

/-- A part of a frame is no fault: it can become the frame. -/
theorem read_of_part {missing : Bytes} (hlimit : limit < Decimal.wordLimit)
    (hfit : r.length ≤ limit) (h : encode r = bs ++ missing) (hmissing : missing ≠ []) :
    read limit bs = .incomplete := by
  have hword := hfit.trans_lt hlimit
  have hnotMem := newline_notMem_lengthHeader r.length
  rw [encode_eq] at h
  by_cases hmem : newline ∈ bs
  · obtain ⟨header, tail, rfl, hheader⟩ := List.eq_append_cons_of_mem hmem
    -- Both sides have their first newline in the same place.
    have hsplit : some (lengthHeader r.length, r) = some (header, tail ++ missing) := by
      rw [← split?_of_header hnotMem, h, List.append_assoc, List.cons_append,
        split?_of_header hheader]
    obtain ⟨rfl, rfl⟩ := Prod.mk.inj (Option.some.inj hsplit)
    have hshort : tail.length < (tail ++ missing).length := by
      rw [List.length_append]
      exact Nat.lt_add_of_pos_right (List.length_pos_iff.2 hmissing)
    rw [read_of_header limit hheader, length?_lengthHeader hword]
    simp only [if_neg (Nat.not_lt.2 hfit), if_pos hshort]
  · have hlength : bs.length ≤ (lengthHeader r.length).length := by
      rcases List.append_eq_append_iff.1 h with ⟨beyond, hbs, hrest⟩ | ⟨beyond, hheader, -⟩
      · cases beyond with
        | nil => rw [hbs, List.append_nil]
        | cons b beyond =>
          rw [List.cons_append, List.cons.injEq] at hrest
          exact absurd (hbs ▸ hrest.1 ▸ List.mem_append_right _ List.mem_cons_self) hmem
      · rw [hheader, List.length_append]
        exact Nat.le_add_right ..
    rw [read_of_notMem limit hmem,
      if_neg (Nat.not_lt.2 (hlength.trans (length_lengthHeader_le hword)))]

/-! ### Runs of frames -/

/-- The frames of records, one after the other. -/
def frames (records : List Bytes) : Bytes := records.flatMap encode

/-- Of a run of frames some bytes have come: they begin with the first record, or they are part of
its frame, or there is none. -/
theorem read_of_frames {records : List Bytes} {later : Bytes} (hlimit : limit < Decimal.wordLimit)
    (hfit : ∀ r ∈ records, r.length ≤ limit) (h : frames records = bs ++ later) :
    (∃ r rest others, records = r :: others ∧ read limit bs = .record r rest ∧
      frames others = rest ++ later) ∨
    read limit bs = .incomplete ∧ (later = [] → bs = [] ∧ records = []) := by
  cases records with
  | nil =>
    obtain ⟨rfl, rfl⟩ := List.append_eq_nil_iff.1 h.symm
    exact .inr ⟨rfl, fun _ => ⟨rfl, rfl⟩⟩
  | cons r others =>
    have hr := hfit r List.mem_cons_self
    rcases List.append_eq_append_iff.1 h with ⟨rest, hbs, hothers⟩ | ⟨missing, hframe, hlater⟩
    · have hread := read_encode_append hlimit hr rest
      exact .inl ⟨r, rest, others, rfl, hbs ▸ hread, hothers⟩
    · cases missing with
      | nil =>
        have hread := read_encode_append hlimit hr []
        rw [List.append_nil] at hframe hread
        exact .inl ⟨r, [], others, rfl, hframe ▸ hread, hlater.symm⟩
      | cons b missing =>
        refine .inr ⟨read_of_part hlimit hr hframe (List.cons_ne_nil b missing), fun hnil => ?_⟩
        rw [hlater] at hnil
        cases hnil

end Rollout.Frame
