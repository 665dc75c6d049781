import Rollout.Roster
import Rollout.Journal

/-!
Completion: counting the hosts whose task succeeded, and when that ends the run.

Only a first success of a host counts. Any other last state of a task stalls its host, and reports
about tasks that were never launched here change nothing. The run ends when the count reaches the
number of known hosts, of which there must be one.
-/
namespace Rollout

/-- What is to happen after a report. -/
inductive Decision where
  | proceed
  /-- Every known host has completed. -/
  | terminate
  deriving DecidableEq, Repr

namespace Roster

/-- The decision at this point. -/
def evaluate (r : Roster) : Decision :=
  if 0 < r.registry.knownCount ∧ r.completed = r.registry.knownCount then .terminate else .proceed

/-- The entry for a report about a task that is none of this run's. -/
def unknownTaskEntry (status : TaskStatus) : Entry :=
  .warn "status update for unknown task, ignoring"
    [("task_id", status.taskId), ("state", status.state.label)]

/-- The entry for a task that ended without success. -/
def stalledEntry (host : Hostname) (status : TaskStatus) : Entry :=
  .warn "installer task ended without success; host will not be retried"
    [("hostname", host), ("task_id", status.taskId), ("state", status.state.label),
     ("message", status.message.getD "")]

/-- Takes a report into the roster; also gives what there is to note about it. -/
def absorb (r : Roster) (status : TaskStatus) : Roster × List Entry :=
  match r.registry.hostOf? status.taskId with
  | none => (r, [unknownTaskEntry status])
  | some host =>
    if status.state.isSuccess then
      match r.registry.markCompleted host with
      | (registry, true) => ({ r with registry, completed := r.completed + 1 }, [])
      | (_, false) => (r, [])
    else if status.state.isTerminal then
      ({ r with registry := (r.registry.markStalled host status.state).1 },
       [stalledEntry host status])
    else (r, [])

/-- Takes a report into the roster and decides. -/
def track (r : Roster) (status : TaskStatus) : Roster × Decision × List Entry :=
  let (next, entries) := r.absorb status
  (next, next.evaluate, entries)

end Roster

end Rollout
