import Rollout.Proofs.Decoder
import Rollout.Proofs.Text

/-!
The grammar of frames.

A decoder decides by what it holds alone, and one table says how: whether a newline has come, what
the bytes before it stand for, and how many bytes have come behind it. Each row leaves what is held
as it is, but for a record, which takes its frame away. So no byte is lost or made up over any use:
what was given is the frames of the records that were handed out, in order, and what is still held.
-/
namespace Rollout.Frame

open Text (Bytes)

variable {limit n : Nat} {header bs r rest : Bytes}

/-- The bytes are the UTF-8 form of a number below the limit of words: decimal digits, perhaps
behind a plus sign, with any blank characters around them. -/
def Names (header : Bytes) (n : Nat) : Prop :=
  ∃ before sign digits after : List Char,
    header = Text.encode (before ++ (sign ++ digits) ++ after) ∧
    (∀ c ∈ before, Text.isBlank c = true) ∧ (∀ c ∈ after, Text.isBlank c = true) ∧
    (sign = [] ∨ sign = ['+']) ∧ digits ≠ [] ∧ (∀ c ∈ digits, c.isDigit = true) ∧
    n = Nat.ofDigitChars 10 digits 0 ∧ n < Decimal.wordLimit

theorem length?_eq_some_iff : length? header = some n ↔ Names header n := by
  simp only [length?, Option.bind_eq_some_iff, Text.decode?_eq_some_iff, Decimal.word?_eq_some_iff]
  constructor
  · rintro ⟨text, rfl, sign, digits, htrim, hsign, hne, hdigits, hn, hlt⟩
    obtain ⟨-, before, after, hbefore, hafter, rfl⟩ := Text.trim_eq_iff.1 htrim
    exact ⟨before, sign, digits, after, rfl, hbefore, hafter, hsign, hne, hdigits, hn, hlt⟩
  · rintro ⟨before, sign, digits, after, rfl, hbefore, hafter, hsign, hne, hdigits, hn, hlt⟩
    have hvisible : ∀ c ∈ sign ++ digits, Text.isBlank c = false := by
      intro c hc
      rcases List.mem_append.1 hc with hc | hc
      · rcases hsign with rfl | rfl
        · cases hc
        · rw [List.mem_singleton.1 hc]
          decide
      · exact Text.isBlank_of_isDigit (hdigits c hc)
    have htrim := Text.trim_eq_iff.2
      ⟨Text.trimmed_of_forall hvisible, before, after, hbefore, hafter, rfl⟩
    exact ⟨_, rfl, sign, digits, htrim, hsign, hne, hdigits, hn, hlt⟩

/-- What a decoder that holds some bytes answers, and what it holds after that. -/
inductive Decides (limit : Nat) : Bytes → Except Fault (Option Bytes) → Bytes → Prop where
  /-- No newline has come, and a header may not have that many bytes. -/
  | runaway {bs : Bytes} (hnone : newline ∉ bs) (hlong : headerLimit < bs.length) :
      Decides limit bs (.error (badHeader (bs.take headerLimit))) bs
  /-- No newline has come yet. -/
  | header {bs : Bytes} (hnone : newline ∉ bs) (hshort : bs.length ≤ headerLimit) :
      Decides limit bs (.ok none) bs
  /-- The header is no number. -/
  | misnamed {header rest : Bytes} (hheader : newline ∉ header) (hnames : ∀ n, ¬ Names header n) :
      Decides limit (header ++ newline :: rest) (.error (badHeader header))
        (header ++ newline :: rest)
  /-- The record is longer than the limit. -/
  | tooLong {header rest : Bytes} {n : Nat} (hheader : newline ∉ header) (hnames : Names header n)
      (hlong : limit < n) :
      Decides limit (header ++ newline :: rest) (.error (.tooLong n limit))
        (header ++ newline :: rest)
  /-- Some bytes of the record are missing. -/
  | missing {header rest : Bytes} {n : Nat} (hheader : newline ∉ header) (hnames : Names header n)
      (hfit : n ≤ limit) (hmissing : rest.length < n) :
      Decides limit (header ++ newline :: rest) (.ok none) (header ++ newline :: rest)
  /-- The record has come. -/
  | record {header r rest : Bytes} (hheader : newline ∉ header) (hnames : Names header r.length)
      (hfit : r.length ≤ limit) :
      Decides limit (header ++ newline :: (r ++ rest)) (.ok (some r)) rest

namespace Decoder

/-- Every row of the table is what a decoder does. -/
theorem next_of_decides {answer : Except Fault (Option Bytes)}
    (h : Decides limit bs answer rest) : next ⟨limit, bs⟩ = (answer, ⟨limit, rest⟩) := by
  cases h with
  | runaway hnone hlong =>
    exact next_of_fault (by rw [read_of_notMem limit hnone, if_pos hlong])
  | header hnone hshort =>
    exact next_of_incomplete (by rw [read_of_notMem limit hnone, if_neg (Nat.not_lt.2 hshort)])
  | @misnamed header rest hheader hnames =>
    have hlength : length? header = none :=
      Option.eq_none_iff_forall_ne_some.2 fun n hn => hnames n (length?_eq_some_iff.1 hn)
    exact next_of_fault (by rw [read_of_header limit hheader, hlength])
  | tooLong hheader hnames hlong =>
    refine next_of_fault ?_
    rw [read_of_header limit hheader, length?_eq_some_iff.2 hnames]
    exact if_pos hlong
  | missing hheader hnames hfit hmissing =>
    refine next_of_incomplete ?_
    rw [read_of_header limit hheader, length?_eq_some_iff.2 hnames]
    simp only [if_neg (Nat.not_lt.2 hfit), if_pos hmissing]
  | record hheader hnames hfit =>
    exact next_of_record
      (read_eq_record_iff.2 ⟨_, hheader, length?_eq_some_iff.2 hnames, hfit, rfl⟩)

/-- Whatever is held is in some row. -/
theorem exists_decides (limit : Nat) (bs : Bytes) :
    ∃ answer rest, Decides limit bs answer rest := by
  by_cases hmem : newline ∈ bs
  · obtain ⟨header, tail, rfl, hheader⟩ := List.eq_append_cons_of_mem hmem
    by_cases hnames : ∃ n, Names header n
    · obtain ⟨n, hn⟩ := hnames
      rcases Nat.lt_or_ge limit n with hlong | hfit
      · exact ⟨_, _, .tooLong hheader hn hlong⟩
      rcases Nat.lt_or_ge tail.length n with hmissing | hcome
      · exact ⟨_, _, .missing hheader hn hfit hmissing⟩
      · have hlength : (tail.take n).length = n := List.length_take_of_le hcome
        have hrecord : Decides limit (header ++ newline :: (tail.take n ++ tail.drop n))
            (.ok (some (tail.take n))) (tail.drop n) :=
          .record hheader (hlength.symm ▸ hn) (hlength.symm ▸ hfit)
        rw [List.take_append_drop] at hrecord
        exact ⟨_, _, hrecord⟩
    · exact ⟨_, _, .misnamed hheader (not_exists.1 hnames)⟩
  · rcases Nat.lt_or_ge headerLimit bs.length with hlong | hshort
    · exact ⟨_, _, .runaway hmem hlong⟩
    · exact ⟨_, _, .header hmem hshort⟩

theorem next_eq_iff {answer : Except Fault (Option Bytes)} {d' : Decoder} :
    next ⟨limit, bs⟩ = (answer, d') ↔ d'.limit = limit ∧ Decides limit bs answer d'.buffer := by
  constructor
  · intro h
    obtain ⟨answer', rest, hdecides⟩ := exists_decides limit bs
    rw [next_of_decides hdecides] at h
    cases h
    exact ⟨rfl, hdecides⟩
  · rintro ⟨rfl, hdecides⟩
    exact next_of_decides hdecides

/-! ### What becomes of the bytes -/

/-- A record takes its frame out of the bytes, and no other answer takes anything. -/
theorem bytes_of_decides {answer : Except Fault (Option Bytes)} (h : Decides limit bs answer rest) :
    (recordOf? answer = none ∧ bs = rest) ∨ ∃ header r, recordOf? answer = some r ∧
      newline ∉ header ∧ Names header r.length ∧ r.length ≤ limit ∧
      bs = header ++ newline :: r ++ rest := by
  cases h with
  | record hheader hnames hfit =>
    exact .inr ⟨_, _, rfl, hheader, hnames, hfit, by rw [List.append_assoc, List.cons_append]⟩
  | _ => exact .inl ⟨rfl, rfl⟩

/-- The bytes that were held and those that were given are the frames of the records that are handed
out and the bytes that are held at the end. -/
theorem exists_frames (limit : Nat) (bs : Bytes) (uses : List Use) :
    ∃ frames : List (Bytes × Bytes),
      frames.map (·.2) = (use ⟨limit, bs⟩ uses).1.filterMap recordOf? ∧
      (∀ f ∈ frames, newline ∉ f.1 ∧ Names f.1 f.2.length ∧ f.2.length ≤ limit) ∧
      bs ++ uses.flatMap Use.given =
        frames.flatMap (fun f => f.1 ++ newline :: f.2) ++ (use ⟨limit, bs⟩ uses).2.buffer := by
  induction uses generalizing bs with
  | nil => exact ⟨[], rfl, nofun, List.append_nil _⟩
  | cons first uses ih =>
    cases first with
    | give bytes =>
      obtain ⟨frames, hrecords, hframes, hbytes⟩ := ih (bs ++ bytes)
      refine ⟨frames, hrecords, hframes, ?_⟩
      rw [List.flatMap_cons, Use.given, ← List.append_assoc]
      exact hbytes
    | ask =>
      obtain ⟨answer, rest, hdecides⟩ := exists_decides limit bs
      obtain ⟨frames, hrecords, hframes, hbytes⟩ := ih rest
      simp only [use, next_of_decides hdecides, List.flatMap_cons, Use.given, List.nil_append]
      rcases bytes_of_decides hdecides with
        ⟨hnone, rfl⟩ | ⟨header, r, hsome, hheader, hnames, hfit, rfl⟩
      · rw [List.filterMap_cons_none hnone]
        exact ⟨frames, hrecords, hframes, hbytes⟩
      · rw [List.filterMap_cons_some hsome]
        refine ⟨(header, r) :: frames, congrArg (r :: ·) hrecords,
          List.forall_mem_cons.2 ⟨⟨hheader, hnames, hfit⟩, hframes⟩, ?_⟩
        rw [List.append_assoc, hbytes, List.flatMap_cons]
        exact (List.append_assoc ..).symm

/-- A decoder decides by the grammar: what it answers and what it holds afterwards are what the
table says of the bytes that it holds, and a header that is UTF-8 is given back whole by the fault
that it is. Over any use the bytes that it held and those that it was given are, in order, a header,
a newline and the record for each record that is handed out, and then what is still held. -/
theorem decides_by_grammar (limit : Nat) (held : Bytes) :
    (∀ answer d', next ⟨limit, held⟩ = (answer, d') ↔
      d'.limit = limit ∧ Decides limit held answer d'.buffer) ∧
    (∀ text, badHeader (Text.encode text) = .header (String.ofList text)) ∧
    (∀ uses : List Use, ∃ frames : List (Bytes × Bytes),
      frames.map (·.2) = (use ⟨limit, held⟩ uses).1.filterMap recordOf? ∧
      (∀ f ∈ frames, newline ∉ f.1 ∧ Names f.1 f.2.length ∧ f.2.length ≤ limit) ∧
      held ++ uses.flatMap Use.given =
        frames.flatMap (fun f => f.1 ++ newline :: f.2) ++ (use ⟨limit, held⟩ uses).2.buffer) := by
  refine ⟨fun answer d' => next_eq_iff, fun text => ?_, exists_frames limit held⟩
  rw [badHeader, Text.decodeLossy_of_decode? (Text.decode?_eq_some_iff.2 rfl)]

/-- Blank characters may stand around a length, and a plus sign before it. -/
example : next ⟨2, Text.encode " +02\t".toList ++ newline :: [7, 8, 9]⟩ =
    (.ok (some [7, 8]), ⟨2, [9]⟩) := by decide +kernel

end Decoder

end Rollout.Frame
