import Rollout.Dispatch
import Rollout.Completion
import Rollout.Progress

/-!
The scheduler: a state machine over offer batches and status reports.

Once every known host has completed, the scheduler is done for good: it declines all offers and
ignores all reports.
-/
namespace Rollout

/-- The state of a run. -/
structure Scheduler where
  roster : Roster
  done : Bool
  deriving DecidableEq

namespace Scheduler

def initial : Scheduler := ⟨.empty, false⟩

def registry (s : Scheduler) : Registry := s.roster.registry

def completed (s : Scheduler) : Nat := s.roster.completed

/-- Handles a batch of offers. -/
def handleOffers (d : Dispatcher) (s : Scheduler) (offers : List Offer) : Scheduler × Dispatch :=
  if s.done then (s, .decliningAll offers)
  else
    let (roster, dispatch) := d.dispatch s.roster offers
    ({ s with roster }, dispatch)

/-- Handles a status report. -/
def handleStatus (s : Scheduler) (status : TaskStatus) : Scheduler × Decision × List Entry :=
  if s.done then (s, .terminate, [])
  else
    let (roster, decision, entries) := s.roster.track status
    (⟨roster, decision = .terminate⟩, decision, entries)

def phase (s : Scheduler) : Phase :=
  if s.done then .done
  else if 0 < s.registry.knownCount ∧ s.registry.servicedCount = s.registry.knownCount then
    .draining
  else .collecting

def progress (s : Scheduler) : Progress :=
  { phase := s.phase
    known := s.registry.knownCount
    serviced := s.registry.servicedCount
    completed := s.completed
    unserviced := s.registry.unserviced
    pending := s.registry.pending
    stalled := s.registry.stalled }

end Scheduler

end Rollout
