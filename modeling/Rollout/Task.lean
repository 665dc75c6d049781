/-!
Tasks: what is run on a host, and what the cluster master reports about it.
-/
namespace Rollout

/-- The name that the master gives an agent, one of the cluster's machines. -/
abbrev AgentId := String

/-- The name of a host. It is the same in every offer of that host. -/
abbrev Hostname := String

abbrev OfferId := String
abbrev TaskId := String

/-- The execution state of a task. -/
inductive TaskState where
  | staging | starting | running | killing | finished | failed | killed | error | lost | dropped
  | unreachable | gone | goneByOperator | unknown
  deriving DecidableEq, Repr, Inhabited

namespace TaskState

def all : List TaskState :=
  [.staging, .starting, .running, .killing, .finished, .failed, .killed, .error, .lost, .dropped,
   .unreachable, .gone, .goneByOperator, .unknown]

/-- The name of a state in the master's messages. -/
def name : TaskState → String
  | .staging => "TASK_STAGING"
  | .starting => "TASK_STARTING"
  | .running => "TASK_RUNNING"
  | .killing => "TASK_KILLING"
  | .finished => "TASK_FINISHED"
  | .failed => "TASK_FAILED"
  | .killed => "TASK_KILLED"
  | .error => "TASK_ERROR"
  | .lost => "TASK_LOST"
  | .dropped => "TASK_DROPPED"
  | .unreachable => "TASK_UNREACHABLE"
  | .gone => "TASK_GONE"
  | .goneByOperator => "TASK_GONE_BY_OPERATOR"
  | .unknown => "TASK_UNKNOWN"

/-- The state of a name; a name that is not listed is an unknown state. -/
def ofName (s : String) : TaskState := (all.find? fun t => t.name == s).getD .unknown

/-- The word for a state in a log. -/
def label : TaskState → String
  | .staging => "staging"
  | .starting => "starting"
  | .running => "running"
  | .killing => "killing"
  | .finished => "finished"
  | .failed => "failed"
  | .killed => "killed"
  | .error => "error"
  | .lost => "lost"
  | .dropped => "dropped"
  | .unreachable => "unreachable"
  | .gone => "gone"
  | .goneByOperator => "gone_by_operator"
  | .unknown => "unknown"

/-- The word for a state in a list of hosts. -/
def title : TaskState → String
  | .staging => "Staging"
  | .starting => "Starting"
  | .running => "Running"
  | .killing => "Killing"
  | .finished => "Finished"
  | .failed => "Failed"
  | .killed => "Killed"
  | .error => "Error"
  | .lost => "Lost"
  | .dropped => "Dropped"
  | .unreachable => "Unreachable"
  | .gone => "Gone"
  | .goneByOperator => "GoneByOperator"
  | .unknown => "Unknown"

/-- The task did what it was launched for. -/
def isSuccess : TaskState → Bool
  | .finished => true
  | _ => false

/-- The task will not report again. -/
def isTerminal : TaskState → Bool
  | .finished | .failed | .killed | .error | .lost | .dropped | .gone | .goneByOperator => true
  | _ => false

theorem ofName_name (t : TaskState) : ofName t.name = t := by cases t <;> decide

end TaskState

/-- The resources a task asks for. -/
structure ResourceRequest where
  cpus : Float
  mem : Float
  deriving DecidableEq, Repr

/-- One processor and one unit of memory: what every task asks for, whatever is offered. -/
def ResourceRequest.minimal : ResourceRequest := ⟨1.0, 1.0⟩

/-- What a task runs. -/
structure CommandSpec where
  /-- What the agent fetches before it runs the command line. -/
  uris : List String
  /-- The command line. -/
  value : String
  deriving DecidableEq, Repr

/-- A task for one host. -/
structure Task where
  id : TaskId
  name : String
  agentId : AgentId
  hostname : Hostname
  resources : ResourceRequest
  command : CommandSpec
  deriving DecidableEq, Repr

/-- A report on the state of a task. -/
structure TaskStatus where
  taskId : TaskId
  state : TaskState
  agentId : Option AgentId
  message : Option String
  /-- The token with which the master wants the report acknowledged. -/
  uuid : Option String
  deriving DecidableEq, Repr

/-- A report that names nothing but a task and its state. -/
def TaskStatus.bare (taskId : TaskId) (state : TaskState) : TaskStatus :=
  ⟨taskId, state, none, none, none⟩

end Rollout
