import Rollout.Framework
import Rollout.Json.Record
import Rollout.Offer

/-!
The JSON shapes of offers, tasks and reports: how each is written, and what is read as one.

A written record is an object with all its fields in the order of their declaration; a detail that
is missing is written as null. Reading takes every form that a record has in JSON.
-/
namespace Rollout

open Json

/-- A text that may be missing. -/
def Json.ofText? : Option String → Json
  | some s => .str s
  | none => .null

def Json.ofTexts (texts : List String) : Json := .arr (texts.map .str)

def Resource.toJson (r : Resource) : Json :=
  .obj [("name", .str r.name), ("amount", .number r.amount)]

def Resource.ofJson? (v : Json) : Option Resource := do
  let [name, amount] ← slots? ["name", "amount"] v | none
  some ⟨← name.required string?, ← amount.required float?⟩

def Offer.toJson (o : Offer) : Json :=
  .obj [("id", .str o.id), ("agent_id", .str o.agentId), ("hostname", .str o.hostname),
    ("resources", .arr (o.resources.map Resource.toJson))]

def Offer.ofJson? (v : Json) : Option Offer := do
  let [id, agent, host, resources] ← slots? ["id", "agent_id", "hostname", "resources"] v | none
  some ⟨← id.required string?, ← agent.required string?, ← host.required string?,
    ← resources.required (list? Resource.ofJson?)⟩

def ResourceRequest.toJson (r : ResourceRequest) : Json :=
  .obj [("cpus", .number r.cpus), ("mem", .number r.mem)]

def ResourceRequest.ofJson? (v : Json) : Option ResourceRequest := do
  let [cpus, mem] ← slots? ["cpus", "mem"] v | none
  some ⟨← cpus.required float?, ← mem.required float?⟩

def CommandSpec.toJson (c : CommandSpec) : Json :=
  .obj [("uris", ofTexts c.uris), ("value", .str c.value)]

def CommandSpec.ofJson? (v : Json) : Option CommandSpec := do
  let [uris, value] ← slots? ["uris", "value"] v | none
  some ⟨← uris.required (list? string?), ← value.required string?⟩

def Task.toJson (t : Task) : Json :=
  .obj [("id", .str t.id), ("name", .str t.name), ("agent_id", .str t.agentId),
    ("hostname", .str t.hostname), ("resources", t.resources.toJson), ("command", t.command.toJson)]

def Task.ofJson? (v : Json) : Option Task := do
  let [id, name, agent, host, resources, command] ←
    slots? ["id", "name", "agent_id", "hostname", "resources", "command"] v | none
  some ⟨← id.required string?, ← name.required string?, ← agent.required string?,
    ← host.required string?, ← resources.required ResourceRequest.ofJson?,
    ← command.required CommandSpec.ofJson?⟩

def TaskState.toJson (s : TaskState) : Json := .str s.name

def TaskState.ofJson? (v : Json) : Option TaskState := (choice? v).map TaskState.ofName

def TaskStatus.toJson (s : TaskStatus) : Json :=
  .obj [("task_id", .str s.taskId), ("state", s.state.toJson), ("agent_id", ofText? s.agentId),
    ("message", ofText? s.message), ("uuid", ofText? s.uuid)]

def TaskStatus.ofJson? (v : Json) : Option TaskStatus := do
  let [task, state, agent, message, uuid] ←
    slots? ["task_id", "state", "agent_id", "message", "uuid"] v | none
  some ⟨← task.required string?, ← state.required TaskState.ofJson?, ← agent.optional string?,
    ← message.optional string?, ← uuid.optional string?⟩

def FrameworkInfo.toJson (f : FrameworkInfo) : Json :=
  .obj [("name", .str f.name), ("user", .str f.user)]

def FrameworkInfo.ofJson? (v : Json) : Option FrameworkInfo := do
  let [name, user] ← slots? ["name", "user"] v | none
  some ⟨← name.required string?, ← user.required string?⟩

end Rollout
