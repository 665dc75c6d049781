import Rollout.Proofs.Frame

/-!
What a decoder hands out.

A decoder is asked for records until it needs more bytes or meets a fault. What it has handed out by
then stands at the head of what it was given. If it is given frames, it never meets a fault: at any
time the frames of the records that it has not handed out are the bytes that wait in it and the
bytes that are still to come. So it makes no difference when bytes are given and when it is asked.
-/
namespace Rollout.Frame

open Text (Bytes)

variable {limit : Nat} {bs r rest later : Bytes} {records : List Bytes} {f : Fault}

/-- The bytes begin with what is read as these records, and the rest is behind them. -/
inductive Reads (limit : Nat) : Bytes → List Bytes → Bytes → Prop where
  | nothing (bs : Bytes) : Reads limit bs [] bs
  | record {bs r rest : Bytes} {others : List Bytes} {tail : Bytes}
      (first : read limit bs = .record r rest) (next : Reads limit rest others tail) :
      Reads limit bs (r :: others) tail

/-- Whatever follows them, the records that have come are read in the same way. -/
theorem Reads.exists_front (h : Reads limit bs records rest) :
    ∃ front, bs = front ++ rest ∧ ∀ other, Reads limit (front ++ other) records other := by
  induction h with
  | nothing bs => exact ⟨[], rfl, .nothing⟩
  | record first _ ih =>
    obtain ⟨before, rfl, hbefore⟩ := ih
    obtain ⟨front, rfl, hfront⟩ := read_of_record first
    refine ⟨front ++ before, (List.append_assoc ..).symm, fun other => ?_⟩
    rw [List.append_assoc]
    exact .record (hfront _) (hbefore other)

theorem Reads.append (h : Reads limit bs records rest) (more : Bytes) :
    Reads limit (bs ++ more) records (rest ++ more) := by
  obtain ⟨front, rfl, hfront⟩ := h.exists_front
  rw [List.append_assoc]
  exact hfront _

theorem Reads.trans {tail : Bytes} {others : List Bytes} (h : Reads limit bs records rest)
    (h' : Reads limit rest others tail) : Reads limit bs (records ++ others) tail := by
  induction h with
  | nothing bs => exact h'
  | record first _ ih => exact .record first (ih h')

/-- Of a run of frames some bytes have come: they begin with the records whose frames are among
them, and behind these is a part of the next frame. -/
theorem reads_of_frames (hlimit : limit < Decimal.wordLimit)
    (hfit : ∀ r ∈ records, r.length ≤ limit) (h : frames records = bs ++ later) :
    ∃ taken left rest, records = taken ++ left ∧ Reads limit bs taken rest ∧
      read limit rest = .incomplete ∧ frames left = rest ++ later ∧
      (later = [] → rest = [] ∧ left = []) := by
  induction records generalizing bs with
  | nil =>
    obtain ⟨rfl, rfl⟩ := List.append_eq_nil_iff.1 h.symm
    exact ⟨[], [], [], rfl, .nothing _, rfl, rfl, fun _ => ⟨rfl, rfl⟩⟩
  | cons record records ih =>
    rcases read_of_frames hlimit hfit h with
      ⟨r, rest, others, heq, hread, hothers⟩ | ⟨hread, hlast⟩
    · cases heq
      obtain ⟨taken, left, tail, rfl, hreads, hend⟩ :=
        ih (fun r hr => hfit r (List.mem_cons_of_mem _ hr)) hothers
      exact ⟨record :: taken, left, tail, rfl, .record hread hreads, hend⟩
    · exact ⟨[], record :: records, bs, rfl, .nothing bs, hread, h, hlast⟩

namespace Decoder

/-! ### Asking once -/

theorem next_of_record (h : read limit bs = .record r rest) :
    next ⟨limit, bs⟩ = (.ok (some r), ⟨limit, rest⟩) := by
  simp only [next, h]

theorem next_of_incomplete (h : read limit bs = .incomplete) :
    next ⟨limit, bs⟩ = (.ok none, ⟨limit, bs⟩) := by
  simp only [next, h]

theorem next_of_fault (h : read limit bs = .fault f) :
    next ⟨limit, bs⟩ = (.error f, ⟨limit, bs⟩) := by
  simp only [next, h]

/-! ### Asking on -/

/-- Asks for records until more bytes are needed or there is a fault. -/
def drain (d : Decoder) : List Bytes × Except Fault Decoder :=
  match _h : d.next with
  | (.ok (some record), d') =>
    let others := d'.drain
    (record :: others.1, others.2)
  | (.ok none, d') => ([], .ok d')
  | (.error f, _) => ([], .error f)
termination_by d.buffered
decreasing_by exact buffered_lt_of_next _h

theorem drain_eq (d : Decoder) : d.drain =
    match d.next with
    | (.ok (some record), d') => (record :: d'.drain.1, d'.drain.2)
    | (.ok none, d') => ([], .ok d')
    | (.error f, _) => ([], .error f) := by
  rw [drain]
  split <;> simp [*]

theorem drain_of_record (h : read limit bs = .record r rest) :
    drain ⟨limit, bs⟩ = (r :: (drain ⟨limit, rest⟩).1, (drain ⟨limit, rest⟩).2) := by
  rw [drain_eq, next_of_record h]

theorem drain_of_incomplete (h : read limit bs = .incomplete) :
    drain ⟨limit, bs⟩ = ([], .ok ⟨limit, bs⟩) := by
  rw [drain_eq, next_of_incomplete h]

theorem drain_of_fault (h : read limit bs = .fault f) :
    drain ⟨limit, bs⟩ = ([], .error f) := by
  rw [drain_eq, next_of_fault h]

theorem drain_of_reads (h : Reads limit bs records rest) :
    drain ⟨limit, bs⟩ = (records ++ (drain ⟨limit, rest⟩).1, (drain ⟨limit, rest⟩).2) := by
  induction h with
  | nothing bs => rfl
  | record first _ ih => rw [drain_of_record first, ih, List.cons_append]

/-- What is handed out stands at the head of the bytes, and what is behind it is no record. -/
theorem exists_drain (limit : Nat) (bs : Bytes) : ∃ records rest, Reads limit bs records rest ∧
    (read limit rest = .incomplete ∧ drain ⟨limit, bs⟩ = (records, .ok ⟨limit, rest⟩) ∨
      ∃ f, read limit rest = .fault f ∧ drain ⟨limit, bs⟩ = (records, .error f)) := by
  induction hn : bs.length using Nat.strongRecOn generalizing bs with
  | ind n ih =>
    cases hread : read limit bs with
    | record r rest =>
      have hshort : rest.length < n := by
        have hlength := length_of_read_record hread
        omega
      obtain ⟨others, tail, hreads, hend⟩ := ih rest.length hshort rest rfl
      refine ⟨r :: others, tail, .record hread hreads, ?_⟩
      rw [drain_of_record hread]
      rcases hend with ⟨htail, hdrain⟩ | ⟨f, htail, hdrain⟩
      · exact .inl ⟨htail, by rw [hdrain]⟩
      · exact .inr ⟨f, htail, by rw [hdrain]⟩
    | incomplete => exact ⟨[], bs, .nothing bs, .inl ⟨hread, drain_of_incomplete hread⟩⟩
    | fault f => exact ⟨[], bs, .nothing bs, .inr ⟨f, hread, drain_of_fault hread⟩⟩

end Decoder

/-! ### Giving and asking -/

/-- What is done with a decoder. -/
inductive Use where
  | give (bytes : Bytes)
  /-- Ask for the next record. -/
  | ask
  deriving DecidableEq, Repr

/-- The bytes that are given. -/
def Use.given : Use → Bytes
  | .give bytes => bytes
  | .ask => []

/-- The record in an answer, if there is one. -/
def recordOf? : Except Fault (Option Bytes) → Option Bytes
  | .ok record => record
  | .error _ => none

namespace Decoder

/-- The answers to what is asked, in order, and the decoder after that. -/
def use (d : Decoder) : List Use → List (Except Fault (Option Bytes)) × Decoder
  | [] => ([], d)
  | .give bytes :: uses => (d.extend bytes).use uses
  | .ask :: uses =>
    let later := d.next.2.use uses
    (d.next.1 :: later.1, later.2)

/-- The records that are not handed out yet are the ones whose frames wait or are still to come,
after every use. -/
theorem use_of_frames (hlimit : limit < Decimal.wordLimit) (hfit : ∀ r ∈ records, r.length ≤ limit)
    (uses : List Use) (h : frames records = bs ++ (uses.flatMap Use.given ++ later)) :
    ∃ answers left rest, use ⟨limit, bs⟩ uses = (answers, ⟨limit, rest⟩) ∧
      (∀ answer ∈ answers, answer.isOk) ∧ records = answers.filterMap recordOf? ++ left ∧
      frames left = rest ++ later := by
  induction uses generalizing bs records with
  | nil => exact ⟨[], records, bs, rfl, by simp, rfl, h⟩
  | cons first uses ih =>
    cases first with
    | give bytes =>
      have hgiven : frames records = bs ++ bytes ++ (uses.flatMap Use.given ++ later) := by
        rw [h, List.flatMap_cons, Use.given, List.append_assoc, List.append_assoc]
      exact ih hfit hgiven
    | ask =>
      have hgiven : frames records = bs ++ (uses.flatMap Use.given ++ later) := h
      rcases read_of_frames hlimit hfit hgiven with
        ⟨r, rest, others, rfl, hread, hothers⟩ | ⟨hread, -⟩
      · obtain ⟨answers, left, tail, huse, hok, hrecords, htail⟩ :=
          ih (fun r hr => hfit r (List.mem_cons_of_mem _ hr)) hothers
        refine ⟨.ok (some r) :: answers, left, tail, ?_, ?_, ?_, htail⟩
        · simp only [use, next_of_record hread, huse]
        · exact List.forall_mem_cons.2 ⟨rfl, hok⟩
        · rw [List.filterMap_cons_some (f := recordOf?) rfl, List.cons_append, ← hrecords]
      · obtain ⟨answers, left, tail, huse, hok, hrecords, htail⟩ := ih hfit hgiven
        refine ⟨.ok none :: answers, left, tail, ?_, ?_, ?_, htail⟩
        · simp only [use, next_of_incomplete hread, huse]
        · exact List.forall_mem_cons.2 ⟨rfl, hok⟩
        · rw [List.filterMap_cons_none (f := recordOf?) rfl, ← hrecords]

/-- The limit is a word of 64 bits, as every length is. Frames may come in pieces of any size, and
records may be asked for at any time in between: there is never a fault, and the records that are
handed out are the first ones, in order. Once all bytes have come, asking on hands out the others
and leaves nothing behind. -/
theorem hands_out_in_order (limit : Nat) (records : List Bytes) (uses : List Use)
    (hlimit : limit < Decimal.wordLimit) (hfit : ∀ r ∈ records, r.length ≤ limit)
    (hgiven : uses.flatMap Use.given <+: records.flatMap encode) :
    let answers := ((ofLimit limit).use uses).1
    let d := ((ofLimit limit).use uses).2
    (∀ answer ∈ answers, answer.isOk) ∧
    answers.filterMap recordOf? <+: records ∧
    (uses.flatMap Use.given = records.flatMap encode →
      ∃ others d', records = answers.filterMap recordOf? ++ others ∧
        d.drain = (others, .ok d') ∧ d'.buffered = 0) := by
  obtain ⟨later, hlater⟩ := hgiven
  have hstart : frames records = [] ++ (uses.flatMap Use.given ++ later) := hlater.symm
  obtain ⟨answers, left, rest, huse, hok, hrecords, hleft⟩ :=
    use_of_frames hlimit hfit uses hstart
  rw [show (ofLimit limit).use uses = (answers, ⟨limit, rest⟩) from huse]
  refine ⟨hok, ⟨left, hrecords.symm⟩, fun hall => ?_⟩
  have hnil : later = [] := by
    rw [hall] at hlater
    exact List.append_right_eq_self.1 hlater
  have hfitleft : ∀ r ∈ left, r.length ≤ limit :=
    fun r hr => hfit r (hrecords ▸ List.mem_append_right _ hr)
  obtain ⟨taken, none, tail, rfl, hreads, htail, -, hlast⟩ :=
    reads_of_frames hlimit hfitleft hleft
  obtain ⟨rfl, rfl⟩ := hlast hnil
  refine ⟨taken ++ [], ⟨limit, []⟩, hrecords, ?_, rfl⟩
  rw [drain_of_reads hreads, drain_of_incomplete htail]

/-- A record that reads like two frames, and an empty one, in pieces that end within a header,
before a newline and within a record. -/
theorem hands_out_in_order_cut_header :
    let records : List Bytes := [[49, 10, 52, 51, 10, 50, 49, 51, 52, 10, 55], []]
    let uses : List Use := [.ask, .give [49], .ask, .give [49], .ask, .give [10, 49, 10, 52, 51],
      .ask, .give [10, 50, 49, 51, 52, 10, 55, 48], .ask, .ask, .give [10]]
    let handed := ((ofLimit 11).use uses).1.filterMap recordOf?
    uses.flatMap Use.given = records.flatMap encode ∧ handed = records.take 1 ∧
      ∃ d', ((ofLimit 11).use uses).2.drain = ([[]], .ok d') ∧ d'.buffered = 0 := by
  intro records uses handed
  have hall : uses.flatMap Use.given = records.flatMap encode := by decide
  have hhanded : handed = records.take 1 := by decide
  obtain ⟨-, -, hlast⟩ :=
    hands_out_in_order 11 records uses (by decide) (by decide) (hall ▸ List.prefix_rfl)
  obtain ⟨others, d', hrecords, hdrain, hd'⟩ := hlast hall
  have hothers : records.take 1 ++ [[]] = records.take 1 ++ others := hhanded ▸ hrecords
  cases List.append_cancel_left hothers
  exact ⟨hall, hhanded, d', hdrain, hd'⟩

end Decoder

end Rollout.Frame
