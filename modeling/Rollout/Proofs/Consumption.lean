import Rollout.Proofs.Stream

/-!
What readings use up.

A reading goes over the body in passes: each looks for a record among the bytes that wait, and if
there is none takes one piece from the body. So it comes to an end with the pieces, whatever is in
them. And it leaves less than it found: a record, whether it is readable or not, takes its header
and its newline with it, two bytes at least even if it is empty, and where the body broke off a
piece is gone. So the count of readings before the last one is bounded by what the body holds.
-/
namespace Rollout.Master

open Text (Bytes)

variable {α : Type}

/-- Nothing comes behind this: the bytes are no frame, or the body has ended. -/
def Next.Final (r : Next α) : Prop :=
  (∃ f, r = .failed (.framing f)) ∨ ∃ leftover, r = .ended leftover

theorem Next.Final.isLast {r : Next α} (h : r.Final) : r.isLast = true := by
  rcases h with ⟨f, rfl⟩ | ⟨leftover, rfl⟩ <;> rfl

namespace Stream

/-- The bytes that no record has been made of yet, those that wait and those still to come. -/
def unread (s : Stream) : Nat := s.decoder.buffered + (s.pieces.flatMap Piece.bytes).length

/-- How often the body will still break off. -/
def breaks (s : Stream) : Nat := (s.pieces.filterMap Piece.broken?).length

/-- What a reading that is not the last one gives, and what it uses up: a record or an unreadable
one takes at least two bytes, and a break in the body takes its piece. -/
inductive Spends (s : Stream) : Next α → Stream → Prop where
  | record {r : Next α} {s' : Stream} (given : (∃ a, r = .item a) ∨ r = .failed .unreadable)
      (bytes : s'.unread + 2 ≤ s.unread) (pieces : s'.breaks = s.breaks) : Spends s r s'
  | broken {reason : String} {s' : Stream} (bytes : s'.unread = s.unread)
      (pieces : s'.breaks + 1 = s.breaks) : Spends s (.failed (.brokenBody reason)) s'

/-- The stream after some readings. -/
def after (read : Bytes → Option α) : Nat → Stream → Stream
  | 0, s => s
  | n + 1, s => after read n (s.next read).2

/-! ### One pass -/

/-- One pass of a reading: what it has to hand out, or the stream with one piece less. -/
def pass (read : Bytes → Option α) (s : Stream) : (Next α × Stream) ⊕ Stream :=
  match s.decoder.next with
  | (.ok (some record), d) => .inl (readItem read record, ⟨d, s.pieces⟩)
  | (.error f, d) => .inl (.failed (.framing f), ⟨d, s.pieces⟩)
  | (.ok none, d) =>
    match s.pieces with
    | [] => .inl (.ended d.buffered, ⟨d, []⟩)
    | .data bytes :: rest => .inr ⟨d.extend bytes, rest⟩
    | .trailers :: rest => .inr ⟨d, rest⟩
    | .broken reason :: rest => .inl (.failed (.brokenBody reason), ⟨d, rest⟩)

/-- What there is to hand out after at most `n` passes. -/
def passes (read : Bytes → Option α) : Nat → Stream → Option (Next α × Stream)
  | 0, _ => none
  | n + 1, s =>
    match s.pass read with
    | .inl result => some result
    | .inr s' => passes read n s'

variable {read : Bytes → Option α} {d d' : Frame.Decoder} {pieces : List Piece} {s : Stream}

/-- One pass more than there are pieces is enough for a reading. -/
theorem passes_eq_next (read : Bytes → Option α) (s : Stream) :
    s.passes read (s.pieces.length + 1) = some (s.next read) := by
  obtain ⟨d, pieces⟩ := s
  rw [next]
  fun_induction nextFrom read d pieces with
  | case1 pieces d record d' hnext => simp only [passes, pass, hnext]
  | case2 pieces d f d' hnext => simp only [passes, pass, hnext]
  | case3 d d' hnext => simp only [passes, pass, hnext]
  | case4 d d' hnext bytes rest ih =>
    rw [← ih]
    simp only [List.length_cons, passes, pass, hnext]
  | case5 d d' hnext rest ih =>
    rw [← ih]
    simp only [List.length_cons, passes, pass, hnext]
  | case6 d d' hnext reason rest => simp only [passes, pass, hnext]

/-! ### One reading -/

/-- Even an empty record has a header of one byte at least, and a newline. -/
theorem buffered_of_next_record {record : Bytes} (h : d.next = (.ok (some record), d')) :
    d'.buffered + 2 ≤ d.buffered := by
  rw [Frame.Decoder.next] at h
  split at h
  · next r rest hread =>
    cases h
    obtain ⟨header, -, hlength, -, hbuffer⟩ := Frame.read_eq_record_iff.1 hread
    have hheader : 0 < header.length := by
      refine List.length_pos_iff.2 ?_
      rintro rfl
      cases hlength
    simp only [Frame.Decoder.buffered, hbuffer, List.length_append, List.length_cons]
    omega
  · cases h
  · cases h

theorem unread_extend (d : Frame.Decoder) (bytes : Bytes) (rest : List Piece) :
    unread ⟨d.extend bytes, rest⟩ = unread ⟨d, .data bytes :: rest⟩ := by
  simp only [unread, Frame.Decoder.buffered_extend, List.flatMap_cons, List.length_append,
    Piece.bytes, Nat.add_assoc]

/-- What a stream spends it spends as well if pieces without breaks were taken before. -/
theorem Spends.of_eq {s' s'' : Stream} {r : Next α} (h : Spends s' r s'')
    (hunread : s'.unread = s.unread) (hbreaks : s'.breaks = s.breaks) : Spends s r s'' := by
  cases h with
  | record given bytes pieces => exact .record given (hunread ▸ bytes) (hbreaks ▸ pieces)
  | broken bytes pieces => exact .broken (hunread ▸ bytes) (hbreaks ▸ pieces)

/-- How many readings a stream can be in for before its last one. -/
def budget (s : Stream) : Nat := s.unread / 2 + s.breaks

theorem Spends.budget_lt {s' : Stream} {r : Next α} (h : Spends s r s') :
    s'.budget < s.budget := by
  simp only [budget]
  cases h <;> omega

/-- Every reading is the last one or uses up some of the stream. -/
theorem final_or_spends (read : Bytes → Option α) (s : Stream) :
    (s.next read).1.Final ∨ Spends s (s.next read).1 (s.next read).2 := by
  obtain ⟨d, pieces⟩ := s
  rw [next]
  fun_induction nextFrom read d pieces with
  | case1 pieces d record d' hnext =>
    have hbytes := buffered_of_next_record hnext
    refine .inr (.record ?_ ?_ rfl)
    · rw [readItem]
      cases read record with
      | some a => exact .inl ⟨a, rfl⟩
      | none => exact .inr rfl
    · simp only [unread]
      omega
  | case2 pieces d f d' hnext => exact .inl (.inl ⟨f, rfl⟩)
  | case3 d d' hnext => exact .inl (.inr ⟨d'.buffered, rfl⟩)
  | case4 d d' hnext bytes rest ih =>
    cases Frame.Decoder.eq_of_next_none hnext
    exact ih.imp_right fun h => h.of_eq (unread_extend d bytes rest) rfl
  | case5 d d' hnext rest ih =>
    cases Frame.Decoder.eq_of_next_none hnext
    exact ih.imp_right fun h => h.of_eq rfl rfl
  | case6 d d' hnext reason rest =>
    cases Frame.Decoder.eq_of_next_none hnext
    exact .inr (.broken rfl rfl)

/-! ### One after the other -/

/-- Every reading before the last one is paid for out of the budget. -/
theorem exists_final (read : Bytes → Option α) (s : Stream) :
    ∃ n ≤ s.budget, ((s.after read n).next read).1.Final ∧
      ∀ k < n, Spends (s.after read k) ((s.after read k).next read).1 (s.after read (k + 1)) := by
  -- a reading can take any part of the budget, so the induction is strong
  induction hbudget : s.budget using Nat.strongRecOn generalizing s with
  | ind budget ih =>
    subst hbudget
    rcases final_or_spends read s with hfinal | hspends
    · exact ⟨0, Nat.zero_le _, hfinal, fun k hk => absurd hk (Nat.not_lt_zero k)⟩
    · have hless := hspends.budget_lt
      obtain ⟨n, hn, hfinal, hbefore⟩ := ih _ hless _ rfl
      refine ⟨n + 1, hn.trans_lt hless, hfinal, fun k hk => ?_⟩
      cases k with
      | zero => exact hspends
      | succ k => exact hbefore k (Nat.lt_of_succ_lt_succ hk)

/-- A body is read to its end, or to bytes that are no frame, after at most one reading for every
two bytes of its data and one for every time it breaks off. Whatever state a stream is in, a reading
is the last one or has used up what it counts for, and it does not go on without end: one pass more
than there are pieces is enough to come to what it hands out. -/
theorem read_to_the_end (read : Bytes → Option α) (pieces : List Piece) :
    let bytes := (pieces.flatMap Piece.bytes).length
    let breaks := (pieces.filterMap Piece.broken?).length
    let s := ofPieces pieces
    (∃ n ≤ bytes / 2 + breaks, ((s.after read n).next read).1.Final ∧
      ∀ k < n, Spends (s.after read k) ((s.after read k).next read).1 (s.after read (k + 1))) ∧
    ∀ s' : Stream, ((s'.next read).1.Final ∨ Spends s' (s'.next read).1 (s'.next read).2) ∧
      s'.passes read (s'.pieces.length + 1) = some (s'.next read) := by
  intro bytes breaks s
  have hbudget : s.budget = bytes / 2 + breaks :=
    congrArg (· / 2 + breaks) (Nat.zero_add bytes)
  exact ⟨hbudget ▸ exists_final read s, fun s' => ⟨final_or_spends read s', passes_eq_next read s'⟩⟩

/-- Empty records and a break use up as little as there can be: with four bytes and one break the
fourth reading is the last. -/
theorem read_to_the_end_empty_records :
    let read : Bytes → Option Nat := fun _ => none
    let s := ofPieces [.data [48, 10, 48], .broken "reset", .trailers, .data [10]]
    (∀ k < 3, Spends (s.after read k) ((s.after read k).next read).1 (s.after read (k + 1))) ∧
      ((s.after read 3).next read).1 = .ended 0 := by
  intro read s
  obtain ⟨⟨n, hn, hfinal, hbefore⟩, -⟩ :=
    read_to_the_end read [.data [48, 10, 48], .broken "reset", .trailers, .data [10]]
  have hgoes : ∀ k < 3, ((s.after read k).next read).1.isLast = false := by decide
  have hthree : n = 3 := by
    refine le_antisymm hn (Nat.le_of_not_lt fun hlt => ?_)
    have hlast := hfinal.isLast
    rw [hgoes n hlt] at hlast
    cases hlast
  exact ⟨fun k hk => hbefore k (hthree ▸ hk), by decide⟩

end Stream

end Rollout.Master
