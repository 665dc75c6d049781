import Rollout.Proofs.Completion
import Rollout.Proofs.Dispatch

/-!
What every use of a roster keeps.

In a run the count of completions is the number of completed hosts. Whoever drives a registry, a
dispatcher and a count by hand, in any order, does not have that: a success that is entered in the
registry directly is counted by nobody, and two hosts may have been given one identifier. What is
left is that the count never runs ahead of the registry. That is all it takes to be sure that no
decision to terminate comes early.
-/
namespace Rollout

/-- A completed host keeps its status for good, with the task that succeeded. -/
theorem HostStatus.lasting_completed (task : TaskId) :
    Lasting fun s => decide (s = .completed task) where
  launch _ h := by simp at h
  stall _ _ h := by simp at h
  recover _ _ h := by simp at h

namespace Roster

/-- An operation on a roster, as a value. -/
inductive Operation where
  | registry (op : Registry.Operation)
  | dispatch (batch : List Offer)
  | build (offer : Offer)
  | track (report : TaskStatus)
  | evaluate
  deriving DecidableEq

/-- What an operation answers. -/
inductive Outcome where
  /-- Whether an operation on the registry was carried out. -/
  | carried (out : Bool)
  | dispatched (dispatch : Dispatch)
  | built (task : Task)
  | decided (decision : Decision)
  deriving DecidableEq

/-- Carries out an operation. A task that is only built uses up its identifier. -/
def perform (d : Dispatcher) (r : Roster) : Operation → Roster × Outcome
  | .registry op => ({ r with registry := (r.registry.perform op).1 },
      .carried (r.registry.perform op).2)
  | .dispatch batch => ((d.dispatch r batch).1, .dispatched (d.dispatch r batch).2)
  | .build offer => ({ r with drawn := r.drawn + 1 }, .built (d.buildTask r.drawn offer))
  | .track report => ((r.track report).1, .decided (r.track report).2.1)
  | .evaluate => (r, .decided r.evaluate)

/-- The roster after some operations. -/
def performAll (d : Dispatcher) (r : Roster) (ops : List Operation) : Roster :=
  ops.foldl (fun r op => (r.perform d op).1) r

/-- No completion is counted that the registry does not show. -/
def Covered (r : Roster) : Prop := r.completed ≤ r.registry.completedCount

variable {d : Dispatcher} {r r' : Roster}

/-! ### One operation -/

theorem covered_of_moves (hr : r.Covered) (h : Moves d r r') : r'.Covered := by
  induction h with
  | refl => exact hr
  | tail _ hmove ih =>
    have hrises := completed_of_move hmove
    unfold Covered at ih ⊢
    omega

theorem changes_perform (d : Dispatcher) (r : Roster) (op : Operation) :
    r.registry.Changes (r.perform d op).1.registry := by
  cases op with
  | registry op => exact Registry.changes_perform r.registry op
  | dispatch batch => exact changes_of_moves (answered_dispatch d r batch).moves
  | track report => exact changes_of_moves (moves_absorb d r report)
  | build | evaluate => exact .refl

theorem covered_perform (hr : r.Covered) (op : Operation) : (r.perform d op).1.Covered := by
  cases op with
  | registry op =>
    -- the registry moves on and the count stays behind
    exact hr.trans (Registry.countWhere_le_of_changes HostStatus.lasting_isCompleted
      (Registry.changes_perform r.registry op))
  | dispatch batch => exact covered_of_moves hr (answered_dispatch d r batch).moves
  | track report => exact covered_of_moves hr (moves_absorb d r report)
  | build | evaluate => exact hr

/-- A decision is about the roster that the operation leaves. -/
theorem evaluate_of_decided {op : Operation} {decision : Decision}
    (h : (r.perform d op).2 = .decided decision) : (r.perform d op).1.evaluate = decision := by
  cases op with
  | track | evaluate => exact Outcome.decided.inj h
  | registry | dispatch | build => cases h

/-- As long as no completion is counted too many, termination means that all hosts are done. -/
theorem Covered.isCompleted_of_terminate (hr : r.Covered) (h : r.evaluate = .terminate) :
    0 < r.registry.knownCount ∧
      ∀ host s, r.registry.status? host = some s → s.isCompleted = true := by
  obtain ⟨hpos, hall⟩ := (evaluate_eq_terminate_iff r).1 h
  have hle := r.registry.completedCount_le_knownCount
  unfold Covered at hr
  exact ⟨hpos, Registry.completedCount_eq_knownCount_iff.1 (by omega)⟩

/-! ### Any operations in any order -/

theorem changes_performAll (d : Dispatcher) (r : Roster) (ops : List Operation) :
    r.registry.Changes (r.performAll d ops).registry := by
  induction ops generalizing r with
  | nil => exact .refl
  | cons op rest ih => exact (changes_perform d r op).trans (ih _)

theorem covered_performAll (hr : r.Covered) (ops : List Operation) :
    (r.performAll d ops).Covered := by
  induction ops generalizing r with
  | nil => exact hr
  | cons op rest ih => exact ih (covered_perform hr op)

/-- Whatever is done to an empty roster: the completions that are counted are no more than the
completed hosts, which are no more than the served ones, which are no more than the known ones. A
known host stays known and a completed one stays completed, with its task, whatever is done next. A
decision to terminate comes only when there is a known host and all known hosts are completed. -/
theorem never_terminates_early (d : Dispatcher) (ops : List Operation) :
    let r := Roster.empty.performAll d ops
    (r.completed ≤ r.registry.completedCount ∧
      r.registry.completedCount ≤ r.registry.servicedCount ∧
      r.registry.servicedCount ≤ r.registry.knownCount) ∧
    (∀ later host, let r' := r.performAll d later
      (r.registry.isKnown host = true → r'.registry.isKnown host = true) ∧
      ∀ task, r.registry.status? host = some (.completed task) →
        r'.registry.status? host = some (.completed task)) ∧
    ∀ op, (r.perform d op).2 = .decided .terminate → let r' := (r.perform d op).1
      0 < r'.registry.knownCount ∧ ∀ host, r'.registry.isKnown host = true →
        ∃ task, r'.registry.status? host = some (.completed task) := by
  intro r
  have hr : r.Covered := covered_performAll (Nat.zero_le _) ops
  refine ⟨⟨hr, r.registry.completedCount_le_servicedCount, r.registry.servicedCount_le_knownCount⟩,
    fun later host => ?_, fun op hop => ?_⟩
  · have hlater := changes_performAll d r later
    refine ⟨Registry.isKnown_of_changes hlater, fun task htask => ?_⟩
    obtain ⟨s, hs, heq⟩ := Registry.lasts_of_changes (HostStatus.lasting_completed task) hlater
      ⟨_, htask, decide_eq_true rfl⟩
    rwa [of_decide_eq_true heq] at hs
  · obtain ⟨hpos, hall⟩ :=
      (covered_perform hr op).isCompleted_of_terminate (evaluate_of_decided hop)
    refine ⟨hpos, fun host hknown => ?_⟩
    rw [Registry.isKnown_eq, Option.isSome_iff_exists] at hknown
    obtain ⟨s, hs⟩ := hknown
    have hcompleted := hall host s hs
    cases s with
    | completed task => exact ⟨task, hs⟩
    | seen | serviced | stalled => cases hcompleted

/-- A success that is entered directly is counted by nobody, and termination does not come. -/
example (d : Dispatcher) :
    let r := empty.performAll d [.registry (.observe "a"), .registry (.markServiced "a" "t"),
      .registry (.markCompleted "a")]
    r.completed = 0 ∧ r.registry.completedCount = 1 ∧ r.evaluate = .proceed :=
  ⟨rfl, rfl, rfl⟩

end Roster

end Rollout
