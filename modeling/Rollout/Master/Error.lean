import Rollout.Frame
import Rollout.Http.StatusCode
import Rollout.Manager

/-!
What can go wrong between the program and the master.
-/
namespace Rollout

/-- Why talking to the master failed. -/
inductive MasterError where
  /-- The address given for the master is none. -/
  | invalidAddress (address : String)
  /-- No answer came to a request. -/
  | unreachable
  /-- The body of an answer broke off. -/
  | brokenBody (reason : String)
  /-- The master answered with a status code that means no. -/
  | refused (code : Nat) (text : String)
  /-- The answer to the subscription does not name the stream. -/
  | unnamedStream
  /-- The events ended before the subscription was confirmed. -/
  | notSubscribed
  /-- A record is no event. -/
  | unreadable
  | framing (f : Frame.Fault)
  /-- The session was stopped before. -/
  | stopped
  deriving DecidableEq, Repr

namespace MasterError

def message : MasterError → String
  | .invalidAddress address => "invalid master address: " ++ Text.quote address
  | .unreachable => "request to master failed"
  | .brokenBody reason => "failed to read response body: " ++ reason
  | .refused code text => s!"master answered {Http.statusText code}: {text}"
  | .unnamedStream => "subscribe response is missing the Mesos-Stream-Id header"
  | .notSubscribed => "event stream closed before SUBSCRIBED"
  | .unreadable => "json error"
  | .framing f => "recordio error: " ++ f.message
  | .stopped => "driver already stopped"

/-- The failure of a command that this error is the cause of. -/
def toCommandError : MasterError → CommandError
  | .refused code text => .rejected (refused code text).message
  | .stopped => .stopped
  | e => .transport e.message

end MasterError

end Rollout
