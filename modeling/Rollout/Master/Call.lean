import Rollout.Framework
import Rollout.Json.Shape
import Rollout.Manager

/-!
Calls to the master: what the program posts, and its JSON.
-/
namespace Rollout.Master

open Json

/-- A call. The refusal, in seconds, is how long the master keeps what was not used from being
offered again. -/
inductive Call where
  | subscribe (framework : FrameworkInfo)
  /-- Accepts one offer with one task. -/
  | accept (framework : FrameworkId) (offer : OfferId) (task : Task) (refusal : Float)
  | decline (framework : FrameworkId) (offers : List OfferId) (refusal : Float)
  | acknowledge (framework : FrameworkId) (agent : AgentId) (task : TaskId) (uuid : String)
  | teardown (framework : FrameworkId)
  deriving DecidableEq, Repr

namespace Call

/-- The acknowledgement of a report, which needs both its agent and its token. -/
def acknowledging? (framework : FrameworkId) (status : TaskStatus) : Option Call := do
  some (.acknowledge framework (← status.agentId) status.taskId (← status.uuid))

/-- The call for a command; a report that cannot be acknowledged needs none. -/
def ofCommand? (framework : FrameworkId) (refusal : Float) : Command → Option Call
  | .launch offer task => some (.accept framework offer task refusal)
  | .decline offers => some (.decline framework offers refusal)
  | .acknowledge status => acknowledging? framework status
  | .stop => some (.teardown framework)

/-! ### JSON -/

/-- An identifier or another single value, in a record of its own. -/
def valueRecord (v : Json) : Json := .obj [("value", v)]

def idRecord (id : String) : Json := valueRecord (.str id)

def filters (refusal : Float) : Json := .obj [("refuse_seconds", .number refusal)]

def resourceRecord (r : Resource) : Json :=
  .obj [("name", .str r.name), ("type", .str "SCALAR"), ("scalar", valueRecord (.number r.amount))]

def commandRecord (c : CommandSpec) : Json :=
  .obj [("shell", .bool true), ("value", .str c.value), ("uris", .arr (c.uris.map idRecord))]

/-- A task; its host is not named, since the agent decides that. -/
def taskRecord (t : Task) : Json :=
  .obj [("name", .str t.name), ("task_id", idRecord t.id), ("agent_id", idRecord t.agentId),
    ("resources", .arr (t.resources.resources.map resourceRecord)),
    ("command", commandRecord t.command)]

/-- The launch of a task as an operation on an offer. -/
def launchRecord (t : Task) : Json :=
  .obj [("type", .str "LAUNCH"), ("launch", .obj [("task_infos", .arr [taskRecord t])])]

/-- The body of a request. -/
def toJson : Call → Json
  | .subscribe f =>
    .obj [("type", .str "SUBSCRIBE"),
      ("subscribe", .obj [("framework_info", .obj [("user", .str f.user), ("name", .str f.name)])])]
  | .accept framework offer task refusal =>
    .obj [("framework_id", idRecord framework), ("type", .str "ACCEPT"),
      ("accept", .obj [("offer_ids", .arr [idRecord offer]),
        ("operations", .arr [launchRecord task]), ("filters", filters refusal)])]
  | .decline framework offers refusal =>
    .obj [("framework_id", idRecord framework), ("type", .str "DECLINE"),
      ("decline", .obj [("offer_ids", .arr (offers.map idRecord)), ("filters", filters refusal)])]
  | .acknowledge framework agent task uuid =>
    .obj [("framework_id", idRecord framework), ("type", .str "ACKNOWLEDGE"),
      ("acknowledge", .obj [("agent_id", idRecord agent), ("task_id", idRecord task),
        ("uuid", .str uuid)])]
  | .teardown framework =>
    .obj [("framework_id", idRecord framework), ("type", .str "TEARDOWN")]

end Call

end Rollout.Master
