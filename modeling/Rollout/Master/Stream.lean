import Rollout.Frame
import Rollout.Journal
import Rollout.Master.Error

/-!
The body of an answer as a stream of records.

The body comes in pieces. Their data, one after the other, are frames; pieces that carry no data are
passed over, and where the body broke off and went on, the failure is handed out and reading can go
on as well. So can it after a record that is unreadable, but not after bytes that are no frame.
-/
namespace Rollout.Master

open Text (Bytes)

/-- A piece of a body. -/
inductive Piece where
  | data (bytes : Bytes)
  /-- Fields that follow the data. -/
  | trailers
  | broken (reason : String)
  deriving DecidableEq, Repr

/-- What a stream has next. -/
inductive Next (α : Type) where
  | item (a : α)
  | failed (e : MasterError)
  /-- The end of the body, and how many bytes are left that are no whole record. -/
  | ended (leftover : Nat)
  deriving DecidableEq, Repr

/-- Reading goes no further. -/
def Next.isLast {α : Type} : Next α → Bool
  | .failed (.framing _) => true
  | .ended _ => true
  | _ => false

/-- The entry for a body that ends within a record. -/
def leftoverEntry (n : Nat) : Entry :=
  .warn "event stream ended mid-record" [("bytes", toString n)]

/-- What there is to note about the end of a stream. -/
def Next.entries {α : Type} : Next α → List Entry
  | .ended 0 => []
  | .ended n => [leftoverEntry n]
  | _ => []

/-- A body that is being read. -/
structure Stream where
  decoder : Frame.Decoder
  pieces : List Piece
  deriving DecidableEq, Repr

namespace Stream

/-- A body of which nothing is read yet. -/
def ofPieces (pieces : List Piece) : Stream := ⟨.ofLimit Frame.defaultLimit, pieces⟩

/-- What a record is read as. -/
def readItem {α : Type} (read : Bytes → Option α) (record : Bytes) : Next α :=
  match read record with
  | some a => .item a
  | none => .failed .unreadable

/-- Reads on with these bytes waiting until there is something to hand out. -/
def nextFrom {α : Type} (read : Bytes → Option α) (d : Frame.Decoder) (pieces : List Piece) :
    Next α × Stream :=
  match d.next with
  | (.ok (some record), d) => (readItem read record, ⟨d, pieces⟩)
  | (.error f, d) => (.failed (.framing f), ⟨d, pieces⟩)
  | (.ok none, d) =>
    match pieces with
    | [] => (.ended d.buffered, ⟨d, []⟩)
    | .data bytes :: rest => nextFrom read (d.extend bytes) rest
    | .trailers :: rest => nextFrom read d rest
    | .broken reason :: rest => (.failed (.brokenBody reason), ⟨d, rest⟩)

/-- What the stream has next. -/
def next {α : Type} (read : Bytes → Option α) (s : Stream) : Next α × Stream :=
  nextFrom read s.decoder s.pieces

/-- Reads at most `n` times, and no further than the last thing there is. -/
def take {α : Type} (read : Bytes → Option α) : Nat → Stream → List (Next α)
  | 0, _ => []
  | n + 1, s =>
    let (r, s) := s.next read
    if r.isLast then [r] else r :: take read n s

/-- The bytes that are still to come in a body. -/
def dataSize (pieces : List Piece) : Nat :=
  pieces.foldr (fun
    | .data bytes, n => bytes.length + n
    | _, n => n) 0

/-- As many readings as a stream can take: each uses up a byte or a piece, but for the last. -/
def bound (s : Stream) : Nat := s.decoder.buffered + dataSize s.pieces + s.pieces.length + 1

section

variable {α : Type} {d d' : Frame.Decoder} {read : Bytes → Option α} {pieces : List Piece}

theorem nextFrom_of_record {record : Bytes} (h : d.next = (.ok (some record), d')) :
    nextFrom read d pieces = (readItem read record, ⟨d', pieces⟩) := by
  rw [nextFrom, h]

/-- Without a whole record the next piece decides. -/
theorem nextFrom_of_none (h : d.next = (.ok none, d)) : nextFrom read d pieces =
    match pieces with
    | [] => (.ended d.buffered, ⟨d, []⟩)
    | .data bytes :: rest => nextFrom read (d.extend bytes) rest
    | .trailers :: rest => nextFrom read d rest
    | .broken reason :: rest => (.failed (.brokenBody reason), ⟨d, rest⟩) := by
  rw [nextFrom, h]

/-- Whatever is not the last thing of a stream uses up some of it. -/
theorem bound_nextFrom_lt (h : (nextFrom read d pieces).1.isLast = false) :
    (nextFrom read d pieces).2.bound < bound ⟨d, pieces⟩ := by
  fun_induction nextFrom read d pieces with
  | case1 pieces d record d' hnext =>
    have hshort := Frame.Decoder.buffered_lt_of_next hnext
    simp only [bound]
    omega
  | case2 => cases h
  | case3 => cases h
  | case4 d d' hnext bytes rest ih =>
    cases Frame.Decoder.eq_of_next_none hnext
    have hrest := ih h
    simp only [bound, dataSize, List.foldr_cons, List.length_cons,
      Frame.Decoder.buffered_extend] at hrest ⊢
    omega
  | case5 d d' hnext rest ih =>
    cases Frame.Decoder.eq_of_next_none hnext
    exact Nat.lt_trans (ih h) (Nat.lt_succ_self _)
  | case6 d d' hnext reason rest =>
    cases Frame.Decoder.eq_of_next_none hnext
    exact Nat.lt_succ_self _

theorem bound_next_lt {s : Stream} (h : (s.next read).1.isLast = false) :
    (s.next read).2.bound < s.bound := bound_nextFrom_lt h

end

/-- Everything a stream has. -/
def toList {α : Type} (read : Bytes → Option α) (s : Stream) : List (Next α) := s.take read s.bound

end Stream

end Rollout.Master
