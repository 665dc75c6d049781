import Rollout.Table
import Rollout.Task

/-!
The registry of hosts: every host that was ever offered, and how far it got.

A host is `seen` from its first offer on, `serviced` once its task is launched, and ends `completed`
or `stalled`; a stalled host may still complete. The registry only grows, no host is serviced twice,
and an operation that is refused changes nothing.
-/
namespace Rollout

/-- How far a host got. -/
inductive HostStatus where
  /-- Offered, and no task launched yet. -/
  | seen
  /-- A task was launched and has not ended. -/
  | serviced (task : TaskId)
  /-- The task succeeded. -/
  | completed (task : TaskId)
  /-- The task ended in a state that is no success. -/
  | stalled (task : TaskId) (state : TaskState)
  deriving DecidableEq, Repr

namespace HostStatus

def isServiced : HostStatus → Bool
  | .seen => false
  | _ => true

def isSeen : HostStatus → Bool
  | .seen => true
  | _ => false

/-- The task is under way. -/
def isPending : HostStatus → Bool
  | .serviced _ => true
  | _ => false

def isCompleted : HostStatus → Bool
  | .completed _ => true
  | _ => false

/-- The task of a host, if it has one. -/
def task? : HostStatus → Option TaskId
  | .seen => none
  | .serviced t => some t
  | .completed t => some t
  | .stalled t _ => some t

/-- The state a host is stalled in, if it is. -/
def stalledIn? : HostStatus → Option TaskState
  | .stalled _ s => some s
  | _ => none

end HostStatus

/-- The known hosts with their status, and the host of every launched task. -/
structure Registry where
  hosts : Table HostStatus
  tasks : Table Hostname
  deriving DecidableEq

namespace Registry

def empty : Registry := ⟨.empty, .empty⟩

/-! ### Questions -/

def status? (r : Registry) (host : Hostname) : Option HostStatus := r.hosts.get? host

def isKnown (r : Registry) (host : Hostname) : Bool := r.hosts.contains host

def isServiced (r : Registry) (host : Hostname) : Bool :=
  match r.status? host with
  | some s => s.isServiced
  | none => false

/-- The host that a task was launched for. -/
def hostOf? (r : Registry) (task : TaskId) : Option Hostname := r.tasks.get? task

def knownCount (r : Registry) : Nat := r.hosts.size

def servicedCount (r : Registry) : Nat := r.hosts.countWhere HostStatus.isServiced

def completedCount (r : Registry) : Nat := r.hosts.countWhere HostStatus.isCompleted

/-- The hosts without a task, in ascending order. -/
def unserviced (r : Registry) : List Hostname := r.hosts.keysWhere HostStatus.isSeen

/-- The hosts whose task is under way, in ascending order. -/
def pending (r : Registry) : List Hostname := r.hosts.keysWhere HostStatus.isPending

/-- The stalled hosts, in ascending order, each with the state its task ended in. -/
def stalled (r : Registry) : List (Hostname × TaskState) :=
  r.hosts.entries.filterMap fun e => e.2.stalledIn?.map (e.1, ·)

/-! ### Operations, each with the answer whether it was carried out -/

/-- The registry with the status of one host changed. -/
def setStatus (r : Registry) (host : Hostname) (s : HostStatus) : Registry :=
  { r with hosts := r.hosts.insert host s }

/-- Adds a host that is not known yet. -/
def observe (r : Registry) (host : Hostname) : Registry × Bool :=
  if r.isKnown host then (r, false) else (r.setStatus host .seen, true)

/-- Records that a task was launched for a host that is known and has none. -/
def markServiced (r : Registry) (host : Hostname) (task : TaskId) : Registry × Bool :=
  match r.status? host with
  | some .seen =>
    ({ r.setStatus host (.serviced task) with tasks := r.tasks.insert task host }, true)
  | _ => (r, false)

/-- Records that the task of a host succeeded, the first time only. -/
def markCompleted (r : Registry) (host : Hostname) : Registry × Bool :=
  match r.status? host with
  | some (.serviced t) => (r.setStatus host (.completed t), true)
  | some (.stalled t _) => (r.setStatus host (.completed t), true)
  | _ => (r, false)

/-- Records that the task of a host ended without success while it was under way. -/
def markStalled (r : Registry) (host : Hostname) (state : TaskState) : Registry × Bool :=
  match r.status? host with
  | some (.serviced t) => (r.setStatus host (.stalled t state), true)
  | _ => (r, false)

/-- An operation on a registry, as a value. -/
inductive Operation where
  | observe (host : Hostname)
  | markServiced (host : Hostname) (task : TaskId)
  | markCompleted (host : Hostname)
  | markStalled (host : Hostname) (state : TaskState)
  deriving DecidableEq, Repr

/-- Carries out an operation. -/
def perform (r : Registry) : Operation → Registry × Bool
  | .observe host => r.observe host
  | .markServiced host task => r.markServiced host task
  | .markCompleted host => r.markCompleted host
  | .markStalled host state => r.markStalled host state

end Registry

end Rollout
