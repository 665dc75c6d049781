import Rollout.Config.Basic
import Rollout.Master.Session
import Rollout.Run
import Rollout.Watchdog

/-!
An installation: subscribe, run until every known host has completed, and stop.

A configuration is looked at once more before anything is sent, and a subscription that fails is not
tried again. A watchdog goes along with the run: it hears what the run publishes, and is told when
the run is over.
-/
namespace Rollout

open Master

/-- The other side of an installation, and the clock that it goes by. -/
structure Counterpart where
  /-- The answer to the subscription, if one comes. -/
  subscription : Option Response
  /-- The answers to the calls that follow. -/
  answers : Answers
  /-- The last time that the clock can tell, from the start of the run on. -/
  horizon : Nat

/-- What a watchdog hears of a run: the pictures that are published, and when it is over. -/
def Trace.signals (t : Trace) (finish : Nat) : List (Nat × Signal) :=
  t.published.map (fun (time, p) => (time, .progress p)) ++ [(finish, .shutdown)]

/-- Why an installation failed. -/
inductive InstallError where
  | config (e : ConfigError)
  /-- The subscription failed. -/
  | registration (e : MasterError)
  /-- All hosts completed, but the master could not be told to stop. -/
  | stop (e : CommandError)
  deriving DecidableEq, Repr

def InstallError.message : InstallError → String
  | .config e => e.message
  | .registration _ => "failed to register with mesos master"
  | .stop _ => "failed to stop driver"

/-- What an installation needs to know. -/
structure Plan where
  /-- The least time between two launches. -/
  interval : Duration
  /-- How long the run may go on without progress before that is reported. -/
  timeout : Duration
  registration : Registration
  deriving DecidableEq, Repr

/-- The plan of a configuration. -/
def Plan.ofConfig (master : String) (c : Config) : Except ConfigError Plan := do
  let interval ← c.launchInterval
  let timeout ← c.stallTimeout
  return ⟨interval, timeout, master, c.framework, c.offers.refuseSeconds⟩

/-- What became of an installation. -/
structure Installation where
  /-- The requests to the master, in order. -/
  requests : List Request
  /-- Everything the run did. -/
  trace : Trace
  /-- What became of the watchdog, if there was one. -/
  watch : Option Watchdog.Watch
  /-- What was returned, unless the run broke off. -/
  result : Option (Except InstallError Outcome)

namespace Installation

/-- An installation that came to no run. -/
def failed (requests : List Request) (e : InstallError) : Installation :=
  ⟨requests, [], none, some (.error e)⟩

/-- Runs with the events of a session, all of which have arrived. -/
def run (plan : Plan) (d : Dispatcher) (s : Session) (other : Counterpart) (events : List Event) :
    Run.Course Line :=
  Run.followUntil (s.manager other.answers) d 0 other.horizon
    (.initial plan.interval.millis .initial) (events.map (0, ·))

/-- Watches a run. -/
def watched (plan : Plan) (c : Run.Course Line) : Watchdog.Watch :=
  Watchdog.watch plan.timeout.millis .initial (c.trace.signals c.endTime)

/-- The result of a run. -/
def resultOf : Ending → Except InstallError Outcome
  | .ok outcome => .ok outcome
  | .error e => .error (.stop e)

/-- Carries out a plan. -/
def ofPlan (plan : Plan) (d : Dispatcher) (other : Counterpart) : Installation :=
  let registration := plan.registration
  let first := match endpointOf registration.master with
    | .ok endpoint => [registration.request endpoint]
    | .error _ => []
  match Session.subscribe registration other.subscription with
  | .error e => failed first (.registration e)
  | .ok (session, feed) =>
    let course := run plan d session other feed.events
    ⟨first ++ course.final.manager.posted, course.trace, watched plan course,
      course.close.map resultOf⟩

/-- Installs a payload on the hosts of a master. -/
def ofConfig (master : String) (c : Config) (d : Dispatcher) (other : Counterpart) :
    Installation :=
  match Plan.ofConfig master c with
  | .error e => failed [] (.config e)
  | .ok plan => ofPlan plan d other

end Installation

end Rollout
