/-!
Pacing: a least interval between one launch and the next.

Times are milliseconds on one clock. The first launch is never delayed, and with the interval zero
no launch is. For any other launch the interval is added to the time of the last one, and that sum
must be a time that the clock can tell: behind its horizon there is no slot any more.
-/
namespace Rollout

/-- The interval between launches, and the time of the last one. -/
structure Pacer where
  interval : Nat
  last : Option Nat
  deriving DecidableEq, Repr

namespace Pacer

/-- A pacer before the first launch. -/
def ofInterval (interval : Nat) : Pacer := ⟨interval, none⟩

/-- The earliest time, from `now` on, at which a launch may go out, if the clock can tell the time
at the interval from the last launch. -/
def due? (horizon : Nat) (p : Pacer) (now : Nat) : Option Nat :=
  match p.last with
  | some last =>
    if p.interval = 0 then some now
    else if last + p.interval ≤ horizon then some (max now (last + p.interval))
    else none
  | none => some now

/-- Takes the next slot, if there is one: the time of the launch, and the pacer after it. -/
def ready? (horizon : Nat) (p : Pacer) (now : Nat) : Option (Nat × Pacer) :=
  (p.due? horizon now).map fun time => (time, { p with last := some time })

/-- The times of launches that are asked for one after the other, each some time after the one
before it went out, as long as there are slots. -/
def times (horizon : Nat) (p : Pacer) (now : Nat) : List Nat → List Nat
  | [] => []
  | wait :: waits =>
    match p.ready? horizon (now + wait) with
    | none => []
    | some (time, next) => time :: next.times horizon time waits

/-! ### On a clock without an end -/

/-- The earliest time, from `now` on, at which a launch may go out on a clock that can tell every
time. -/
def due (p : Pacer) (now : Nat) : Nat :=
  match p.last with
  | some last => if p.interval = 0 then now else max now (last + p.interval)
  | none => now

/-- Takes the next slot on such a clock. -/
def ready (p : Pacer) (now : Nat) : Nat × Pacer := (p.due now, { p with last := some (p.due now) })

variable {horizon now : Nat} {p : Pacer}

/-- As long as a clock can tell the time, it does not matter that it ends. -/
theorem ready?_eq_some {slot : Nat × Pacer} (h : p.ready? horizon now = some slot) :
    p.ready now = slot := by
  obtain ⟨time, htime, rfl⟩ := Option.map_eq_some_iff.1 h
  have hdue : p.due now = time := by
    rw [due?] at htime
    rw [due]
    split at htime
    · split at htime
      · next hzero => rw [if_pos hzero, Option.some.inj htime]
      · next hzero =>
        split at htime
        · rw [if_neg hzero, Option.some.inj htime]
        · cases htime
    · exact Option.some.inj htime
  rw [ready, hdue]

/-- There is no slot exactly if the interval from the last launch ends behind the horizon. -/
theorem ready?_eq_none_iff : p.ready? horizon now = none ↔
    p.interval ≠ 0 ∧ ∃ last, p.last = some last ∧ horizon < last + p.interval := by
  rw [ready?, Option.map_eq_none_iff, due?]
  cases hlast : p.last with
  | none => simp
  | some last =>
    simp only [Option.some.injEq, exists_eq_left']
    split
    · next hzero => simp [hzero]
    · next hzero =>
      split
      · next hle => simp [Nat.not_lt.2 hle]
      · next hle => simp [hzero, Nat.lt_of_not_le hle]

/-- Where there is no slot, the time of the launch would be behind the horizon. -/
theorem lt_due_of_ready?_eq_none (h : p.ready? horizon now = none) : horizon < p.due now := by
  obtain ⟨hzero, last, hlast, hover⟩ := ready?_eq_none_iff.1 h
  rw [due, hlast]
  simp only [if_neg hzero]
  omega

end Pacer

end Rollout
