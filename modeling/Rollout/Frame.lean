import Rollout.Decimal.Natural
import Rollout.Text.Blank
import Rollout.Text.Quoted
import Rollout.Text.Utf8

/-!
Frames: how records travel in one run of bytes.

A frame is a header, a newline and the record. The header is the length of the record in decimal;
blanks around it are allowed, and so is a plus sign. Bytes come in pieces of any size, so a reader
keeps what it has and says whether that is a record, the beginning of one, or no frame at all. What
it says depends on the bytes alone: a header is judged by what stands before the first newline, or
by its length if no newline has come.
-/
namespace Rollout.Frame

open Text (Bytes)

/-- Why bytes are no frame. -/
inductive Fault where
  /-- The header is no length; it is given as text. -/
  | header (text : String)
  /-- The record would be longer than the reader accepts. -/
  | tooLong (length limit : Nat)
  deriving DecidableEq, Repr

def Fault.message : Fault → String
  | .header text => "invalid record length header: " ++ Text.quote text
  | .tooLong length limit => s!"record of {length} bytes exceeds limit of {limit}"

/-- The byte that ends a header. -/
def newline : UInt8 := 0x0A

/-- As many bytes as the digits of the largest length; no header may go on without end. -/
def headerLimit : Nat := 20

/-- The longest record that is accepted unless another limit is set: 64 MiB. -/
def defaultLimit : Nat := 64 * 1024 * 1024

/-- The frame of a record. -/
def encode (record : Bytes) : Bytes :=
  Text.encode (Decimal.digits record.length) ++ newline :: record

/-- The bytes before and after the first newline, if there is one. -/
def split? (bs : Bytes) : Option (Bytes × Bytes) :=
  match bs.dropWhile (· != newline) with
  | [] => none
  | _ :: rest => some (bs.takeWhile (· != newline), rest)

/-- The length that a header stands for. -/
def length? (header : Bytes) : Option Nat :=
  (Text.decode? header).bind fun s => Decimal.word? (Text.trim s)

/-- The fault of a header that is no length. -/
def badHeader (header : Bytes) : Fault := .header (String.ofList (Text.decodeLossy header))

/-- What the bytes that have come so far are. -/
inductive Reading where
  /-- A record, and the bytes behind it. -/
  | record (record rest : Bytes)
  /-- The beginning of a frame. -/
  | incomplete
  | fault (f : Fault)
  deriving DecidableEq, Repr

/-- Reads one frame with a record of at most `limit` bytes. -/
def read (limit : Nat) (bs : Bytes) : Reading :=
  match split? bs with
  | none =>
    if headerLimit < bs.length then .fault (badHeader (bs.take headerLimit)) else .incomplete
  | some (header, rest) =>
    match length? header with
    | none => .fault (badHeader header)
    | some n =>
      if limit < n then .fault (.tooLong n limit)
      else if rest.length < n then .incomplete
      else .record (rest.take n) (rest.drop n)

/-- A reader with the bytes that no record has been made of yet. -/
structure Decoder where
  limit : Nat
  buffer : Bytes
  deriving DecidableEq, Repr

namespace Decoder

/-- A reader before the first byte. -/
def ofLimit (limit : Nat) : Decoder := ⟨limit, []⟩

/-- Takes bytes that have come. -/
def extend (d : Decoder) (bs : Bytes) : Decoder := { d with buffer := d.buffer ++ bs }

/-- The count of bytes that are waiting. -/
def buffered (d : Decoder) : Nat := d.buffer.length

/-- The next record, or nothing if more bytes are needed. A fault stays: it changes nothing. -/
def next (d : Decoder) : Except Fault (Option Bytes) × Decoder :=
  match read d.limit d.buffer with
  | .record r rest => (.ok (some r), { d with buffer := rest })
  | .incomplete => (.ok none, d)
  | .fault f => (.error f, d)

end Decoder

/-! ### The head of a run of bytes -/

/-- A record is shorter than the bytes that it was read from by its header and newline at least. -/
theorem length_of_read_record {limit : Nat} {bs r rest : Bytes}
    (h : read limit bs = .record r rest) : rest.length + r.length < bs.length := by
  simp only [read] at h
  split at h
  · split at h <;> simp at h
  · rename_i header tail hsplit
    have htail : tail.length < bs.length := by
      simp only [split?] at hsplit
      split at hsplit
      · simp at hsplit
      · rename_i b t heq
        simp only [Option.some.injEq, Prod.mk.injEq] at hsplit
        have hle := (List.dropWhile_suffix (p := fun x => x != newline) (l := bs)).length_le
        rw [heq, List.length_cons] at hle
        rw [← hsplit.2]
        omega
    split at h
    · simp at h
    · split at h
      · simp at h
      · split at h
        · simp at h
        · simp only [Reading.record.injEq] at h
          rw [← h.1, ← h.2, List.length_take, List.length_drop]
          omega

namespace Decoder

variable {d d' : Decoder}

/-- Only a record changes what is waiting. -/
theorem eq_of_next_none (h : d.next = (.ok none, d')) : d' = d := by
  rw [next] at h
  split at h <;> cases h
  rfl

/-- A record takes its bytes out of the decoder. -/
theorem buffered_lt_of_next {r : Bytes} (h : d.next = (.ok (some r), d')) :
    d'.buffered < d.buffered := by
  rw [next] at h
  split at h
  · next r' rest hread =>
    cases h
    exact Nat.lt_of_le_of_lt (Nat.le_add_right ..) (length_of_read_record hread)
  · cases h
  · cases h

theorem buffered_extend (d : Decoder) (bs : Bytes) :
    (d.extend bs).buffered = d.buffered + bs.length := List.length_append

end Decoder

end Rollout.Frame
