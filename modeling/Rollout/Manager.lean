import Rollout.Offer

/-!
The cluster manager as a run sees it: events come in, commands go out.

A manager is given by what it answers to a command. It may keep a state of its own from one command
to the next, so that the same run can be put in front of a live connection, a script of answers, or
a manager that always agrees.
-/
namespace Rollout

/-- What the manager tells a run. -/
inductive Event where
  /-- The framework is registered under this name. -/
  | registered (framework : String)
  /-- Offers that came together. -/
  | offers (batch : List Offer)
  /-- A task changed its state. -/
  | status (status : TaskStatus)
  /-- An offer was withdrawn. -/
  | rescinded (offer : OfferId)
  /-- The manager has an error to report. -/
  | error (message : String)
  deriving DecidableEq, Repr

/-- What a run asks of the manager. -/
inductive Command where
  | launch (offer : OfferId) (task : Task)
  | decline (offers : List OfferId)
  | acknowledge (status : TaskStatus)
  | stop
  deriving DecidableEq, Repr

/-- Why a command failed. -/
inductive CommandError where
  /-- The manager refused it. -/
  | rejected (reason : String)
  /-- It did not reach the manager, or no answer came back. -/
  | transport (reason : String)
  /-- The connection was stopped before. -/
  | stopped
  deriving DecidableEq, Repr

def CommandError.message : CommandError → String
  | .rejected reason => "call rejected by cluster manager: " ++ reason
  | .transport reason => "transport error: " ++ reason
  | .stopped => "driver already stopped"

/-- A manager with states in `σ`: its answer to a command, and the state after it. -/
structure Manager (σ : Type) where
  perform : Command → σ → Except CommandError Unit × σ

/-- A manager that gives the answers of a list, and agrees when there are none left. -/
def Manager.scripted : Manager (List (Except CommandError Unit)) where
  perform _ answers := (answers.headD (.ok ()), answers.drop 1)

end Rollout
