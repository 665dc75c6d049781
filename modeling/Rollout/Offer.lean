import Rollout.Task

/-!
Resource offers: what the master lets a framework use of a host for a while.
-/
namespace Rollout

/-- An amount of one resource, such as `cpus` or `mem`. -/
structure Resource where
  name : String
  amount : Float
  deriving DecidableEq, Repr

/-- Resources of one host. They are described as the master offers them and never checked. -/
structure Offer where
  id : OfferId
  agentId : AgentId
  hostname : Hostname
  resources : List Resource
  deriving DecidableEq, Repr

/-- A task together with the offer whose resources it will use. -/
structure Launch where
  offerId : OfferId
  task : Task
  deriving DecidableEq, Repr

/-- A request as named resources. -/
def ResourceRequest.resources (r : ResourceRequest) : List Resource :=
  [⟨"cpus", r.cpus⟩, ⟨"mem", r.mem⟩]

/-- The request asks for the minimum. -/
def ResourceRequest.isMinimal (r : ResourceRequest) : Bool :=
  r.cpus == minimal.cpus && r.mem == minimal.mem

end Rollout
