import Rollout.Proofs.Phase

/-!
Headway: a measure of how far a run has come.

A host makes three steps of headway at most: its launch, the end of its task, and its success. No
input takes any of them back, and an input that makes no headway leaves the scheduler as it was.
That is why a run changes its picture at most three times for each host, however much it is told.
-/
namespace Rollout

namespace Registry

/-- The hosts whose task has ended. -/
def endedCount (r : Registry) : Nat := r.hosts.countWhere HostStatus.isEnded

/-- The steps that all hosts together have made. -/
def headway (r : Registry) : Nat := r.servicedCount + r.endedCount + r.completedCount

theorem headway_le (r : Registry) : r.headway ≤ 3 * r.knownCount := by
  have hserviced : r.servicedCount ≤ r.knownCount := r.hosts.countWhere_le_size _
  have hended : r.endedCount ≤ r.knownCount := r.hosts.countWhere_le_size _
  have hcompleted := r.completedCount_le_knownCount
  rw [headway]
  omega

end Registry

namespace Roster

variable {d : Dispatcher} {r r' : Roster}

theorem headway_le_of_moves (h : Moves d r r') : r.registry.headway ≤ r'.registry.headway :=
  Nat.add_le_add (Nat.add_le_add (countWhere_le_of_moves HostStatus.lasting_isServiced h)
    (countWhere_le_of_moves HostStatus.lasting_isEnded h))
    (countWhere_le_of_moves HostStatus.lasting_isCompleted h)

/-- A move makes a host known or makes headway. -/
theorem lt_of_move (h : Move d r r') : r.registry.knownCount + r.registry.headway
    < r'.registry.knownCount + r'.registry.headway := by
  have hknown : r.registry.knownCount ≤ r'.registry.knownCount :=
    knownCount_le_of_moves (.single h)
  have hserviced : r.registry.servicedCount ≤ r'.registry.servicedCount :=
    Registry.countWhere_le_of_change HostStatus.lasting_isServiced (change_of_move h)
  have hended : r.registry.endedCount ≤ r'.registry.endedCount :=
    Registry.countWhere_le_of_change HostStatus.lasting_isEnded (change_of_move h)
  have hcompleted : r.registry.completedCount ≤ r'.registry.completedCount :=
    Registry.countWhere_le_of_change HostStatus.lasting_isCompleted (change_of_move h)
  have hrises : r.registry.knownCount < r'.registry.knownCount ∨
      r.registry.servicedCount < r'.registry.servicedCount ∨
      r.registry.endedCount < r'.registry.endedCount ∨
      r.registry.completedCount < r'.registry.completedCount := by
    cases h with
    | observe new =>
      left
      simp only [Registry.knownCount, Table.size_eq_countWhere]
      refine Table.countWhere_lt_insert (fun old hold => ?_) rfl
      cases new.symm.trans hold
    | enter seen next =>
      right; left
      rw [enter, Registry.markServiced_of_seen seen]
      refine Table.countWhere_lt_insert (fun old hold => ?_) rfl
      cases seen.symm.trans hold
      rfl
    | complete status has first =>
      right; right; right
      refine Table.countWhere_lt_insert (fun old hold => ?_) rfl
      cases status.symm.trans hold
      exact first
    | stall status =>
      right; right; left
      refine Table.countWhere_lt_insert (fun old hold => ?_) rfl
      cases status.symm.trans hold
      rfl
  simp only [Registry.headway]
  omega

theorem eq_or_lt_of_moves (h : Moves d r r') : r = r' ∨ r.registry.knownCount + r.registry.headway
    < r'.registry.knownCount + r'.registry.headway := by
  induction h with
  | refl => exact .inl rfl
  | tail _ hmove ih =>
    rcases ih with rfl | hlt
    · exact .inr (lt_of_move hmove)
    · exact .inr (hlt.trans (lt_of_move hmove))

end Roster

namespace Scheduler

variable {d : Dispatcher} {s s' : Scheduler}

/-- Two sound schedulers with the same roster are the same. -/
theorem Sound.eq_of_roster_eq (hs : Sound d s) (hs' : Sound d s') (h : s.roster = s'.roster) :
    s = s' := by
  have hdone : s.done = s'.done := by
    rw [Bool.eq_iff_iff, hs.latch, hs'.latch, registry, registry, completed, completed, h]
  cases s
  cases s'
  cases h
  cases hdone
  rfl

/-- Between two inputs every known host has made its first step. -/
theorem Sound.headway_eq (hs : Sound d s) : s.registry.headway =
    s.registry.knownCount + s.registry.endedCount + s.registry.completedCount := by
  rw [Registry.headway, hs.servicedCount_eq_knownCount]

/-- An input that changes a scheduler makes headway: a host that becomes known has made its first
step when the input is answered. -/
theorem Sound.eq_or_headway_lt (hs : Sound d s) (input : Input) :
    step d s input = s ∨ s.registry.headway < (step d s input).registry.headway := by
  have hnext := sound_step hs input
  have hmoves : Roster.Moves d s.roster (step d s input).roster := moves_step s input
  rcases Roster.eq_or_lt_of_moves hmoves with heq | hlt
  · exact .inl (hs.eq_of_roster_eq hnext heq).symm
  · right
    have hknown : s.registry.knownCount ≤ (step d s input).registry.knownCount :=
      Roster.knownCount_le_of_moves hmoves
    have hended : s.registry.endedCount ≤ (step d s input).registry.endedCount :=
      Roster.countWhere_le_of_moves HostStatus.lasting_isEnded hmoves
    have hcompleted : s.registry.completedCount ≤ (step d s input).registry.completedCount :=
      Roster.countWhere_le_of_moves HostStatus.lasting_isCompleted hmoves
    change s.registry.knownCount + s.registry.headway
      < (step d s input).registry.knownCount + (step d s input).registry.headway at hlt
    rw [hs.headway_eq, hnext.headway_eq] at hlt ⊢
    omega

end Scheduler

end Rollout
