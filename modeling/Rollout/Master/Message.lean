import Rollout.Framework
import Rollout.Journal
import Rollout.Json.Document
import Rollout.Json.Shape
import Rollout.Manager
import Rollout.Text.Quoted

/-!
Messages from the master: what they are in JSON, and which event each of them is.

A message has a kind and may have sections, one for each of some kinds. Only the section of its own
kind decides what a message means. Kinds that are not listed are read as unknown; they, and messages
without the section of their kind, mean nothing to a run.
-/
namespace Rollout.Master

open Json
open Text (Bytes)

/-- The kinds of messages. -/
inductive Kind where
  | subscribed | offers | inverseOffers | rescind | rescindInverseOffer | update
  | updateOperationStatus | message | failure | error | heartbeat | unknown
  deriving DecidableEq, Repr

namespace Kind

/-- The kinds that have a name. -/
def named : List (String × Kind) :=
  [("SUBSCRIBED", .subscribed), ("OFFERS", .offers), ("INVERSE_OFFERS", .inverseOffers),
   ("RESCIND", .rescind), ("RESCIND_INVERSE_OFFER", .rescindInverseOffer), ("UPDATE", .update),
   ("UPDATE_OPERATION_STATUS", .updateOperationStatus), ("MESSAGE", .message),
   ("FAILURE", .failure), ("ERROR", .error), ("HEARTBEAT", .heartbeat)]

def ofName (s : String) : Kind := (named.lookup s).getD .unknown

def ofJson? (v : Json) : Option Kind := (choice? v).map ofName

end Kind

/-- The confirmation of a subscription. -/
structure Subscribed where
  framework : FrameworkId
  /-- The seconds between two heartbeats. -/
  heartbeat : Option Float
  deriving DecidableEq, Repr

/-- A resource as the master describes it; it may be no plain amount. -/
structure OfferedResource where
  name : String
  kind : String
  scalar : Option Float
  deriving DecidableEq, Repr

/-- An offer as the master describes it. -/
structure OfferDescription where
  id : OfferId
  agentId : AgentId
  hostname : Hostname
  resources : List OfferedResource
  deriving DecidableEq, Repr

/-- The report that an agent or an executor broke down. -/
structure Failure where
  agentId : Option AgentId
  executorId : Option String
  status : Option Int
  deriving DecidableEq, Repr

/-- A message with its sections. -/
structure Message where
  kind : Kind
  subscribed : Option Subscribed
  offers : Option (List OfferDescription)
  rescind : Option OfferId
  update : Option TaskStatus
  failure : Option Failure
  error : Option String
  deriving DecidableEq, Repr

/-! ### Reading -/

/-- An identifier, which is a record with one field. -/
def id? (v : Json) : Option String := do
  let [value] ← slots? ["value"] v | none
  value.required string?

/-- An amount, which is a record with one field. -/
def scalar? (v : Json) : Option Float := do
  let [value] ← slots? ["value"] v | none
  value.required float?

def Subscribed.ofJson? (v : Json) : Option Subscribed := do
  let [framework, heartbeat] ← slots? ["framework_id", "heartbeat_interval_seconds"] v | none
  some ⟨← framework.required id?, ← heartbeat.optional float?⟩

def OfferedResource.ofJson? (v : Json) : Option OfferedResource := do
  let [name, kind, scalar] ← slots? ["name", "type", "scalar"] v | none
  some ⟨← name.required string?, ← kind.required string?,
    ← scalar.withDefault none (nullable? scalar?)⟩

def OfferDescription.ofJson? (v : Json) : Option OfferDescription := do
  let [id, agent, host, resources] ← slots? ["id", "agent_id", "hostname", "resources"] v | none
  some ⟨← id.required id?, ← agent.required id?, ← host.required string?,
    ← resources.withDefault [] (list? OfferedResource.ofJson?)⟩

/-- The section of offers. -/
def offers? (v : Json) : Option (List OfferDescription) := do
  let [offers] ← slots? ["offers"] v | none
  offers.withDefault [] (list? OfferDescription.ofJson?)

/-- The section of a withdrawn offer. -/
def rescind? (v : Json) : Option OfferId := do
  let [offer] ← slots? ["offer_id"] v | none
  offer.required id?

/-- A report on a task, with identifiers in records. -/
def status? (v : Json) : Option TaskStatus := do
  let [task, state, agent, message, uuid] ←
    slots? ["task_id", "state", "agent_id", "message", "uuid"] v | none
  some ⟨← task.required id?, ← state.required TaskState.ofJson?, ← agent.optional id?,
    ← message.optional string?, ← uuid.optional string?⟩

/-- The section of a report. -/
def update? (v : Json) : Option TaskStatus := do
  let [status] ← slots? ["status"] v | none
  status.required status?

def Failure.ofJson? (v : Json) : Option Failure := do
  let [agent, executor, status] ← slots? ["agent_id", "executor_id", "status"] v | none
  some ⟨← agent.optional id?, ← executor.optional id?, ← status.optional int32?⟩

/-- The section of an error. -/
def error? (v : Json) : Option String := do
  let [message] ← slots? ["message"] v | none
  message.required string?

def Message.ofJson? (v : Json) : Option Message := do
  let [kind, subscribed, offers, rescind, update, failure, error] ←
    slots? ["type", "subscribed", "offers", "rescind", "update", "failure", "error"] v | none
  some ⟨← kind.required Kind.ofJson?, ← subscribed.optional Subscribed.ofJson?,
    ← offers.optional offers?, ← rescind.optional rescind?, ← update.optional update?,
    ← failure.optional Failure.ofJson?, ← error.optional error?⟩

/-- Reads the text of a message. -/
def Message.read? (bs : Bytes) : Option Message := (Json.parse? bs).bind Message.ofJson?

/-! ### Meaning -/

/-- The offer that is described: of its resources, the ones that are plain amounts. -/
def OfferDescription.offer (o : OfferDescription) : Offer :=
  ⟨o.id, o.agentId, o.hostname, o.resources.filterMap fun r => r.scalar.map (⟨r.name, ·⟩)⟩

/-- The event that a message is, if it is one. -/
def Message.event? (m : Message) : Option Event :=
  match m.kind with
  | .subscribed => m.subscribed.map (.registered ·.framework)
  | .offers => m.offers.map fun os => .offers (os.map OfferDescription.offer)
  | .update => m.update.map .status
  | .rescind => m.rescind.map .rescinded
  | .error => m.error.map .error
  | _ => none

/-- The framework whose subscription the message confirms, if it does. -/
def Message.confirmed? (m : Message) : Option FrameworkId :=
  match m.kind with
  | .subscribed => m.subscribed.map (·.framework)
  | _ => none

/-- The entry for the breakdown of an agent or an executor. -/
def Failure.entry (f : Failure) : Entry :=
  .warn "agent or executor failure reported"
    [("agent_id", Text.quoteOption f.agentId), ("executor_id", Text.quoteOption f.executorId),
     ("status", match f.status with
      | some n => s!"Some({n})"
      | none => "None")]

/-- What there is to note about a message. -/
def Message.entries (m : Message) : List Entry :=
  match m.kind, m.failure with
  | .failure, some f => [f.entry]
  | _, _ => []

end Rollout.Master
