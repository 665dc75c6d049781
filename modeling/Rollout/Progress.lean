import Rollout.Task

/-!
Progress: a picture of a run at one point in time.
-/
namespace Rollout

/-- The phase of a whole run. -/
inductive Phase where
  /-- No host is known, or some known host has no task yet. -/
  | collecting
  /-- Every known host has a task. -/
  | draining
  /-- Every known host has completed; this is final. -/
  | done
  deriving DecidableEq, Repr

def Phase.text : Phase → String
  | .collecting => "collecting"
  | .draining => "draining"
  | .done => "done"

/-- What is published about a run after each event. -/
structure Progress where
  phase : Phase
  known : Nat
  serviced : Nat
  completed : Nat
  /-- The known hosts that wait for an offer. -/
  unserviced : List Hostname
  /-- The hosts whose task is under way. -/
  pending : List Hostname
  /-- The hosts whose task ended without success. -/
  stalled : List (Hostname × TaskState)
  deriving DecidableEq, Repr

namespace Progress

/-- The picture before the first event. -/
def initial : Progress := ⟨.collecting, 0, 0, 0, [], [], []⟩

def isDone (p : Progress) : Bool := p.phase == .done

/-- The run cannot end any more unless a stalled host recovers: no task is under way, no host waits
for an offer, and some host is stalled. -/
def isBlocked (p : Progress) : Bool :=
  !p.isDone && p.pending.isEmpty && p.unserviced.isEmpty && !p.stalled.isEmpty

end Progress

end Rollout
