import Rollout.Master.Session

/-!
What the bodies of requests tell.

The master knows a call only by its body. So each thing that is said of a call is to be found there
under the names that the master reads: the type, which tells the calls apart, the framework, what is
accepted and for which task, and for how long offers are refused.
-/
namespace Rollout.Master

namespace Call

variable {framework : FrameworkId} {refusal : Float} {command : Command} {call : Call}

/-- The type that a call has in its body. -/
def type : Call → String
  | .subscribe _ => "SUBSCRIBE"
  | .accept .. => "ACCEPT"
  | .decline .. => "DECLINE"
  | .acknowledge .. => "ACKNOWLEDGE"
  | .teardown _ => "TEARDOWN"

theorem get?_type (call : Call) : call.toJson.get? "type" = some (.str call.type) := by
  cases call <;> rfl

theorem get?_type_iff {kind : String} :
    call.toJson.get? "type" = some (.str kind) ↔ call.type = kind := by
  rw [get?_type, Option.some.injEq, Json.str.injEq]

/-- A report is acknowledged only if it has its agent and its token. -/
theorem exists_of_acknowledging? {status : TaskStatus}
    (h : acknowledging? framework status = some call) :
    ∃ agent uuid, call = .acknowledge framework agent status.taskId uuid := by
  simp only [acknowledging?, Option.bind_eq_bind, Option.bind_eq_some_iff, Option.some.injEq] at h
  obtain ⟨agent, -, uuid, -, rfl⟩ := h
  exact ⟨agent, uuid, rfl⟩

/-! ### The framework -/

/-- The framework that a call names; a subscription names none, since it asks for one. -/
def framework? : Call → Option FrameworkId
  | .subscribe _ => none
  | .accept framework .. | .decline framework .. | .acknowledge framework ..
  | .teardown framework => some framework

theorem framework?_of_ofCommand? (h : ofCommand? framework refusal command = some call) :
    call.framework? = some framework := by
  cases command with
  | launch | decline | stop => cases h; rfl
  | acknowledge status =>
    obtain ⟨agent, uuid, rfl⟩ := exists_of_acknowledging? h
    rfl

theorem get?_framework_id (h : call.framework? = some framework) :
    call.toJson.get? "framework_id" = some (idRecord framework) := by
  cases call with
  | subscribe => cases h
  | accept | decline | acknowledge | teardown => cases h; rfl

/-! ### Acceptances -/

/-- An offer that is accepted for a task, which runs by an agent. -/
structure Acceptance where
  offer : OfferId
  agent : AgentId
  task : TaskId
  deriving DecidableEq, Repr

/-- The identifier in a record. -/
def idIn? (record : Json) : Option String := do
  let .str id ← record.get? "value" | none
  some id

/-- What a body accepts, if it accepts one offer for the launch of one task. -/
def acceptanceIn? (body : Json) : Option Acceptance := do
  let .str "ACCEPT" ← body.get? "type" | none
  let accept ← body.get? "accept"
  let .arr [offer] ← accept.get? "offer_ids" | none
  let .arr [operation] ← accept.get? "operations" | none
  let .str "LAUNCH" ← operation.get? "type" | none
  let launch ← operation.get? "launch"
  let .arr [task] ← launch.get? "task_infos" | none
  some ⟨← idIn? offer, ← (task.get? "agent_id").bind idIn?, ← (task.get? "task_id").bind idIn?⟩

/-! ### Refusals -/

/-- The section of its body in which a call carries a refusal, if it is one that does. -/
def refusalPart? : Call → Option String
  | .accept .. => some "accept"
  | .decline .. => some "decline"
  | .subscribe _ | .acknowledge .. | .teardown _ => none

/-- The refusal in a section of a body. -/
def refusalIn? (part : String) (body : Json) : Option Json :=
  ((body.get? part).bind (·.get? "filters")).bind (·.get? "refuse_seconds")

/-- Acceptances and declines carry the refusal, and no other call does. -/
theorem refusalIn?_of_ofCommand? {part : String}
    (h : ofCommand? framework refusal command = some call)
    (hpart : call.refusalPart? = some part) :
    refusalIn? part call.toJson = some (.number refusal) := by
  cases command with
  | launch | decline =>
    cases h
    cases hpart
    rfl
  | stop =>
    cases h
    cases hpart
  | acknowledge status =>
    obtain ⟨agent, uuid, rfl⟩ := exists_of_acknowledging? h
    cases hpart

end Call

end Rollout.Master
