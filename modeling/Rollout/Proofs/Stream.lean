import Rollout.Master.Stream
import Rollout.Proofs.Decoder

/-!
What a stream has.

A stream is read as a decoder is asked: as long as there are records they are handed out, and then
the next piece of the body is looked at. A record that is unreadable is handed out like any other,
and trailers and breaks leave the bytes that wait where they are. So if the data of a body are
frames, there is one result for each record, in order, whatever stands between the data.
-/
namespace Rollout.Master

open Text (Bytes)

variable {α : Type}

/-- The data of a piece. -/
def Piece.bytes : Piece → Bytes
  | .data bytes => bytes
  | .trailers | .broken _ => []

/-- Why the body broke off here, if it did. -/
def Piece.broken? : Piece → Option String
  | .broken reason => some reason
  | .data _ | .trailers => none

/-- Why the body broke off, if that is what there is. -/
def Next.broken? : Next α → Option String
  | .failed (.brokenBody reason) => some reason
  | _ => none

namespace Stream

variable {read : Bytes → Option α} {limit : Nat} {bs rest : Bytes} {records : List Bytes}
  {pieces : List Piece} {d d' : Frame.Decoder}

/-! ### One after the other -/

theorem take_succ (read : Bytes → Option α) (n : Nat) (s : Stream) : s.take read (n + 1) =
    if (s.next read).1.isLast then [(s.next read).1]
    else (s.next read).1 :: (s.next read).2.take read n := rfl

/-- More readings than a stream can take make no difference. -/
theorem take_eq_take {n k : Nat} {s : Stream} (hn : s.bound ≤ n) (hk : s.bound ≤ k) :
    s.take read n = s.take read k := by
  induction n generalizing k s with
  | zero => cases hn
  | succ n ih =>
    cases k with
    | zero => cases hk
    | succ k =>
      rw [take_succ, take_succ]
      split
      · rfl
      · next hlast =>
        have hlt := bound_next_lt (Bool.eq_false_iff.2 hlast)
        rw [ih (Nat.le_of_lt_succ (hlt.trans_le hn)) (Nat.le_of_lt_succ (hlt.trans_le hk))]

theorem toList_eq (read : Bytes → Option α) (s : Stream) : s.toList read =
    if (s.next read).1.isLast then [(s.next read).1]
    else (s.next read).1 :: (s.next read).2.toList read := by
  have hmore : s.toList read = s.take read (s.bound + 1) :=
    take_eq_take le_rfl (Nat.le_succ _)
  rw [hmore, take_succ]
  split
  · rfl
  · next hlast =>
    have hlt := bound_next_lt (Bool.eq_false_iff.2 hlast)
    rw [take_eq_take hlt.le le_rfl]
    rfl

theorem isLast_readItem (read : Bytes → Option α) (r : Bytes) :
    (readItem read r).isLast = false := by
  rw [readItem]
  split <;> rfl

/-- The records at the head of what waits come first. -/
theorem toList_of_reads (h : Frame.Reads limit bs records rest) :
    toList read ⟨⟨limit, bs⟩, pieces⟩ =
      records.map (readItem read) ++ toList read ⟨⟨limit, rest⟩, pieces⟩ := by
  induction h with
  | nothing bs => rfl
  | record first _ ih =>
    have hnext := Frame.Decoder.next_of_record first
    rw [toList_eq, next, nextFrom_of_record hnext, if_neg (by simp [isLast_readItem]), ih]
    rfl

theorem toList_nil (h : d.next = (.ok none, d)) :
    toList read ⟨d, []⟩ = [.ended d.buffered] := by
  rw [toList_eq, next, nextFrom_of_none h]
  rfl

theorem toList_data (h : d.next = (.ok none, d)) (bytes : Bytes) :
    toList read ⟨d, .data bytes :: pieces⟩ = toList read ⟨d.extend bytes, pieces⟩ := by
  rw [toList_eq, next, nextFrom_of_none h, toList_eq _ ⟨d.extend bytes, pieces⟩]
  rfl

theorem toList_trailers (h : d.next = (.ok none, d)) :
    toList read ⟨d, .trailers :: pieces⟩ = toList read ⟨d, pieces⟩ := by
  rw [toList_eq, next, nextFrom_of_none h, toList_eq _ ⟨d, pieces⟩]
  rfl

theorem toList_broken (h : d.next = (.ok none, d)) (reason : String) :
    toList read ⟨d, .broken reason :: pieces⟩ =
      .failed (.brokenBody reason) :: toList read ⟨d, pieces⟩ := by
  rw [toList_eq, next, nextFrom_of_none h]
  rfl

/-! ### One for each record -/

/-- The readings are one result for each record and then the end, and there is nothing to note about
them. The body broke off for these reasons in between. -/
structure Yields (read : Bytes → Option α) (records : List Bytes) (reasons : List String)
    (readings : List (Next α)) : Prop where
  results : readings.filter (fun x => x.broken?.isNone) =
    records.map (readItem read) ++ [.ended 0]
  reasons : readings.filterMap Next.broken? = reasons
  entries : readings.flatMap Next.entries = []

theorem yields_end (read : Bytes → Option α) : Yields read [] [] [.ended 0] := ⟨rfl, rfl, rfl⟩

theorem Yields.cons {reasons : List String} {readings : List (Next α)}
    (h : Yields read records reasons readings) (r : Bytes) :
    Yields read (r :: records) reasons (readItem read r :: readings) := by
  have hbroken : (readItem read r).broken? = none := by
    rw [readItem]
    split <;> rfl
  have hentries : (readItem read r).entries = [] := by
    rw [readItem]
    split <;> rfl
  constructor
  · rw [List.filter_cons_of_pos (by simp [hbroken]), h.results, List.map_cons, List.cons_append]
  · rw [List.filterMap_cons_none hbroken, h.reasons]
  · rw [List.flatMap_cons, hentries, h.entries, List.nil_append]

theorem Yields.append {reasons : List String} {readings : List (Next α)} {others : List Bytes}
    (h : Yields read others reasons readings) (records : List Bytes) :
    Yields read (records ++ others) reasons (records.map (readItem read) ++ readings) := by
  induction records with
  | nil => exact h
  | cons r records ih => exact ih.cons r

theorem Yields.broken {reasons : List String} {readings : List (Next α)}
    (h : Yields read records reasons readings) (reason : String) :
    Yields read records (reason :: reasons) (.failed (.brokenBody reason) :: readings) where
  results := h.results
  reasons := congrArg (reason :: ·) h.reasons
  entries := h.entries

/-- The frames of the records wait in part, and the others are data of the pieces. -/
theorem yields_of_frames (hlimit : limit < Decimal.wordLimit)
    (hfit : ∀ r ∈ records, r.length ≤ limit)
    (h : Frame.frames records = bs ++ pieces.flatMap Piece.bytes) :
    Yields read records (pieces.filterMap Piece.broken?) (toList read ⟨⟨limit, bs⟩, pieces⟩) := by
  induction pieces generalizing bs records with
  | nil =>
    obtain ⟨taken, left, rest, rfl, hreads, hrest, -, hlast⟩ :=
      Frame.reads_of_frames hlimit hfit h
    obtain ⟨rfl, rfl⟩ := hlast rfl
    rw [toList_of_reads hreads, toList_nil (Frame.Decoder.next_of_incomplete hrest)]
    exact (yields_end read).append taken
  | cons piece pieces ih =>
    obtain ⟨taken, left, rest, rfl, hreads, hrest, hleft, -⟩ :=
      Frame.reads_of_frames hlimit hfit h
    have hnext := Frame.Decoder.next_of_incomplete hrest
    have hfitleft : ∀ r ∈ left, r.length ≤ limit :=
      fun r hr => hfit r (List.mem_append_right _ hr)
    rw [toList_of_reads hreads]
    cases piece with
    | data bytes =>
      rw [toList_data hnext]
      have hdata : Frame.frames left = rest ++ bytes ++ pieces.flatMap Piece.bytes := by
        rw [hleft, List.flatMap_cons, Piece.bytes, List.append_assoc]
      exact (ih hfitleft hdata).append taken
    | trailers =>
      rw [toList_trailers hnext]
      exact (ih hfitleft hleft).append taken
    | broken reason =>
      rw [toList_broken hnext]
      exact ((ih hfitleft hleft).broken reason).append taken

/-- If the data of a body are frames, however they are cut and whatever stands between them, a
stream has one result for each record, in order, and then its end, at which no bytes are left. The
failures of the body are handed out as well, and they are no others. -/
theorem one_result_for_each_record (read : Bytes → Option α) (records : List Bytes)
    (pieces : List Piece) (hfit : ∀ r ∈ records, r.length ≤ Frame.defaultLimit)
    (hdata : pieces.flatMap Piece.bytes = records.flatMap Frame.encode) :
    let readings := (ofPieces pieces).toList read
    readings.filter (fun x => x.broken?.isNone) = records.map (readItem read) ++ [.ended 0] ∧
    readings.filterMap Next.broken? = pieces.filterMap Piece.broken? ∧
    readings.flatMap Next.entries = [] := by
  have hlimit : Frame.defaultLimit < Decimal.wordLimit := by decide
  have hframes : Frame.frames records = [] ++ pieces.flatMap Piece.bytes := hdata.symm
  have hyields : Yields read records _ ((ofPieces pieces).toList read) :=
    yields_of_frames hlimit hfit hframes
  exact ⟨hyields.results, hyields.reasons, hyields.entries⟩

/-- Two records, one of them unreadable, in pieces with trailers and breaks inside the frames. -/
theorem one_result_for_each_record_broken_body :
    let read : Bytes → Option Nat := fun r => if r.isEmpty then none else some r.length
    let records : List Bytes := [[49, 10], []]
    let pieces : List Piece := [.broken "reset", .data [50], .trailers, .data [10, 49],
      .broken "timeout", .data [10, 48, 10], .broken "reset"]
    pieces.flatMap Piece.bytes = records.flatMap Frame.encode ∧
    ((ofPieces pieces).toList read).filter (fun x => x.broken?.isNone)
      = [.item 2, .failed .unreadable, .ended 0] ∧
    ((ofPieces pieces).toList read).filterMap Next.broken? = ["reset", "timeout", "reset"] := by
  intro read records pieces
  have hdata : pieces.flatMap Piece.bytes = records.flatMap Frame.encode := by decide
  obtain ⟨hresults, hreasons, -⟩ :=
    one_result_for_each_record read records pieces (by decide) hdata
  exact ⟨hdata, hresults, hreasons⟩

end Stream

end Rollout.Master
