import Rollout.Proofs.Decoder

/-!
Streams cut into pieces.

A decoder that is asked for records after each piece comes to the same records and to the same end
wherever the cuts are, but for one thing: the limit on headers is kept only while the newline has
not come. A header beyond that limit is judged like any other if its newline comes in the same piece
as the byte that goes beyond the limit, and is a fault if a cut falls in between. So such headers
are all that two ways of cutting can disagree about, and with each of them some two ways do, unless
what stands behind it comes to the same fault.
-/
namespace Rollout.Frame

open Text (Bytes)

variable {limit : Nat} {bs rest : Bytes} {records : List Bytes} {f : Fault}

/-- The bytes begin with a header that is longer than the limit, and with its newline. -/
def Overlong (bs : Bytes) : Prop :=
  ∃ header rest, newline ∉ header ∧ headerLimit < header.length ∧ bs = header ++ newline :: rest

/-- What a header that has gone on for too long is taken for. -/
def runaway (bs : Bytes) : Fault := badHeader (bs.take headerLimit)

/-- Up to the byte behind the limit such bytes are a fault: their newline is not among them. -/
theorem read_take_of_overlong (limit : Nat) (h : Overlong bs) :
    read limit (bs.take (headerLimit + 1)) = .fault (runaway bs) := by
  obtain ⟨header, rest, hheader, hlong, rfl⟩ := h
  have htake : (header ++ newline :: rest).take (headerLimit + 1) = header.take (headerLimit + 1) :=
    List.take_append_of_le_length hlong
  have hnone : newline ∉ header.take (headerLimit + 1) := fun h => hheader (List.mem_of_mem_take h)
  have hlength : headerLimit < (header.take (headerLimit + 1)).length := by
    rw [List.length_take_of_le hlong]
    exact Nat.lt_succ_self _
  rw [htake, read_of_notMem limit hnone, if_pos hlength, List.take_take, runaway,
    List.take_append_of_le_length hlong.le]
  rfl

/-- A fault that more bytes do away with is a header which has gone on for too long. -/
theorem read_append_of_fault_cases (h : read limit bs = .fault f) (more : Bytes) :
    read limit (bs ++ more) = .fault f ∨ Overlong (bs ++ more) ∧ f = runaway (bs ++ more) := by
  by_cases hmem : newline ∈ bs
  · exact .inl (read_append_of_fault hmem h more)
  rw [read_of_notMem limit hmem] at h
  split at h
  · next hlong =>
    cases h
    have hlonger (bs' : Bytes) : headerLimit < (bs ++ bs').length := by
      rw [List.length_append]
      exact hlong.trans_le (Nat.le_add_right ..)
    have hrunaway : badHeader (bs.take headerLimit) = runaway (bs ++ more) := by
      rw [runaway, List.take_append_of_le_length hlong.le]
    by_cases hmore : newline ∈ more
    · obtain ⟨header, tail, rfl, hheader⟩ := List.eq_append_cons_of_mem hmore
      refine .inr ⟨⟨bs ++ header, tail, ?_, hlonger header, (List.append_assoc ..).symm⟩, hrunaway⟩
      simp [hmem, hheader]
    · have hnone : newline ∉ bs ++ more := by simp [hmem, hmore]
      rw [read_of_notMem limit hnone, if_pos (hlonger more), hrunaway]
      exact .inl rfl
  · cases h

namespace Decoder

/-- Takes pieces in order, asks for records after each, and goes no further than the first fault:
the records that are handed out, and the fault or the count of bytes that are left. -/
def feed (d : Decoder) : List Bytes → List Bytes × Except Fault Nat
  | [] => ([], .ok d.buffered)
  | piece :: pieces =>
    match (d.extend piece).drain with
    | (records, .error f) => (records, .error f)
    | (records, .ok d') => (records ++ (d'.feed pieces).1, (d'.feed pieces).2)

/-- What comes of a stream in one piece. -/
def whole (limit : Nat) (stream : Bytes) : List Bytes × Except Fault Nat :=
  (ofLimit limit).feed [stream]

theorem whole_of_reads (h : Reads limit bs records rest) :
    whole limit bs = (records ++ (whole limit rest).1, (whole limit rest).2) := by
  obtain ⟨others, tail, hothers, hend⟩ := exists_drain limit rest
  simp only [whole, ofLimit, feed, extend, List.nil_append, drain_of_reads h]
  rcases hend with ⟨-, hdrain⟩ | ⟨f, -, hdrain⟩ <;> simp [hdrain]

theorem whole_of_incomplete (h : read limit bs = .incomplete) :
    whole limit bs = ([], .ok bs.length) := by
  simp [whole, ofLimit, feed, extend, drain_of_incomplete h, buffered]

theorem whole_of_fault (h : read limit bs = .fault f) : whole limit bs = ([], .error f) := by
  simp [whole, ofLimit, feed, extend, drain_of_fault h]

/-- A stream in pieces comes to what it comes to in one, or to a fault at one of its overlong
headers. -/
theorem feed_cases (h : read limit bs = .incomplete) (pieces : List Bytes) :
    feed ⟨limit, bs⟩ pieces = whole limit (bs ++ pieces.flatten) ∨
    ∃ records rest, Reads limit (bs ++ pieces.flatten) records rest ∧ Overlong rest ∧
      feed ⟨limit, bs⟩ pieces = (records, .error (runaway rest)) := by
  induction pieces generalizing bs with
  | nil =>
    rw [List.flatten_nil, List.append_nil, whole_of_incomplete h]
    exact .inl rfl
  | cons piece pieces ih =>
    obtain ⟨records, rest, hreads, hend⟩ := exists_drain limit (bs ++ piece)
    have hall : Reads limit (bs ++ (piece :: pieces).flatten) records (rest ++ pieces.flatten) := by
      rw [List.flatten_cons, ← List.append_assoc]
      exact hreads.append _
    rcases hend with ⟨hrest, hdrain⟩ | ⟨f, hrest, hdrain⟩
    · have hfeed : feed ⟨limit, bs⟩ (piece :: pieces) =
          (records ++ (feed ⟨limit, rest⟩ pieces).1, (feed ⟨limit, rest⟩ pieces).2) := by
        simp only [feed, extend, hdrain]
      rcases ih hrest with heq | ⟨others, tail, hothers, hlong, heq⟩
      · exact .inl (by rw [hfeed, heq, whole_of_reads hall])
      · exact .inr ⟨records ++ others, tail, hall.trans hothers, hlong, by rw [hfeed, heq]⟩
    · have hfeed : feed ⟨limit, bs⟩ (piece :: pieces) = (records, .error f) := by
        simp only [feed, extend, hdrain]
      rcases read_append_of_fault_cases hrest pieces.flatten with hfault | ⟨hlong, rfl⟩
      · exact .inl (by rw [hfeed, whole_of_reads hall, whole_of_fault hfault, List.append_nil])
      · exact .inr ⟨records, rest ++ pieces.flatten, hall, hlong, hfeed⟩

/-- A cut behind the limit makes an overlong header a fault. -/
theorem exists_feed_of_overlong (h : Reads limit bs records rest) (hlong : Overlong rest) :
    ∃ pieces : List Bytes, pieces.flatten = bs ∧
      (ofLimit limit).feed pieces = (records, .error (runaway rest)) := by
  obtain ⟨front, rfl, hfront⟩ := h.exists_front
  refine ⟨[front ++ rest.take (headerLimit + 1), rest.drop (headerLimit + 1)], ?_, ?_⟩
  · simp
  · simp only [feed, ofLimit, extend, List.nil_append, drain_of_reads (hfront _),
      drain_of_fault (read_take_of_overlong limit hlong), List.append_nil]

/-- The ways to cut a stream come to the same records and the same end, but for the overlong headers
that are met in it: each of them can end the stream in a fault of its own, and nothing else can make
a difference. -/
theorem feed_eq_up_to_overlong (limit : Nat) (stream : Bytes) :
    (∀ outcome, (∃ pieces : List Bytes, pieces.flatten = stream ∧
        (ofLimit limit).feed pieces = outcome) ↔
      outcome = (ofLimit limit).feed [stream] ∨ ∃ records rest, Reads limit stream records rest ∧
        Overlong rest ∧ outcome = (records, .error (runaway rest))) ∧
    ((∀ records rest, Reads limit stream records rest → ¬ Overlong rest) →
      ∀ pieces pieces' : List Bytes, pieces.flatten = stream → pieces'.flatten = stream →
        (ofLimit limit).feed pieces = (ofLimit limit).feed pieces') := by
  have hcases (pieces : List Bytes) : (ofLimit limit).feed pieces = whole limit pieces.flatten ∨
      ∃ records rest, Reads limit pieces.flatten records rest ∧ Overlong rest ∧
        (ofLimit limit).feed pieces = (records, .error (runaway rest)) := by
    have hstart : read limit [] = .incomplete := rfl
    exact feed_cases hstart pieces
  refine ⟨fun outcome => ⟨?_, ?_⟩, fun hnone pieces pieces' hpieces hpieces' => ?_⟩
  · rintro ⟨pieces, rfl, rfl⟩
    exact hcases pieces
  · rintro (rfl | ⟨records, rest, hreads, hlong, rfl⟩)
    · exact ⟨[stream], by simp, rfl⟩
    · exact exists_feed_of_overlong hreads hlong
  · have hwhole {pieces : List Bytes} (h : pieces.flatten = stream) :
        (ofLimit limit).feed pieces = whole limit stream := by
      rcases hcases pieces with heq | ⟨records, rest, hreads, hlong, -⟩
      · exact h ▸ heq
      · exact absurd hlong (hnone records rest (h ▸ hreads))
    rw [hwhole hpieces, hwhole hpieces']

/-- Twenty zeros and a one stand for the length of one byte, but not if a cut falls behind them. -/
theorem feed_overlong_header :
    let header : Bytes := List.replicate 20 48 ++ [49]
    let pieces : List Bytes := [header ++ [newline, 120]]
    let pieces' : List Bytes := [header, [newline, 120]]
    pieces.flatten = pieces'.flatten ∧
    (ofLimit defaultLimit).feed pieces = ([[120]], .ok 0) ∧
    (ofLimit defaultLimit).feed pieces' = ([], .error (.header "00000000000000000000")) := by
  decide +kernel

end Decoder

end Rollout.Frame
