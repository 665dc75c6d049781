import Rollout.Roster
import Rollout.Payload

/-!
Dispatch: what becomes of a batch of offers.

All hosts of a batch are observed first. Then the offers are answered in order: the first one of a
host without a task is launched on, with one new task, and all others are declined. Offered amounts
are not looked at.
-/
namespace Rollout

/-- The answers to a batch of offers, both lists in the order of the batch. -/
structure Dispatch where
  launches : List Launch
  declined : List OfferId
  deriving DecidableEq, Repr

namespace Dispatch

def empty : Dispatch := ⟨[], []⟩

def isEmpty (d : Dispatch) : Bool := d.launches.isEmpty && d.declined.isEmpty

/-- The answers that use none of the offers. -/
def decliningAll (offers : List Offer) : Dispatch := ⟨[], offers.map (·.id)⟩

end Dispatch

/-- What tasks are built from. -/
structure Dispatcher where
  payload : Payload
  resources : ResourceRequest
  /-- The identifiers of tasks, in the order in which they are drawn. -/
  taskId : Nat → TaskId

namespace Dispatcher

/-- The dispatcher that asks for the minimum of resources. -/
def ofPayload (payload : Payload) (taskId : Nat → TaskId) : Dispatcher :=
  ⟨payload, .minimal, taskId⟩

/-- The task for an offer, with the identifier that is drawn next. -/
def buildTask (d : Dispatcher) (drawn : Nat) (offer : Offer) : Task :=
  { id := d.taskId drawn
    name := "task " ++ d.taskId drawn
    agentId := offer.agentId
    hostname := offer.hostname
    resources := d.resources
    command := d.payload.command }

/-- Answers one offer of a batch whose hosts are all known. -/
def answer (d : Dispatcher) (s : Roster × Dispatch) (offer : Offer) : Roster × Dispatch :=
  let (roster, dispatch) := s
  if roster.registry.isServiced offer.hostname then
    (roster, { dispatch with declined := dispatch.declined ++ [offer.id] })
  else
    let task := d.buildTask roster.drawn offer
    ({ roster with
        registry := (roster.registry.markServiced offer.hostname task.id).1
        drawn := roster.drawn + 1 },
     { dispatch with launches := dispatch.launches ++ [⟨offer.id, task⟩] })

end Dispatcher

/-- The roster with all hosts of a batch known. -/
def Roster.observeAll (r : Roster) (offers : List Offer) : Roster :=
  { r with registry := offers.foldl (fun g o => (g.observe o.hostname).1) r.registry }

/-- Answers a batch of offers. -/
def Dispatcher.dispatch (d : Dispatcher) (r : Roster) (offers : List Offer) : Roster × Dispatch :=
  offers.foldl d.answer (r.observeAll offers, .empty)

end Rollout
