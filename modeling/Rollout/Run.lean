import Rollout.Manager
import Rollout.Pacer
import Rollout.Scheduler

/-!
A run: events handled one after the other until every known host has completed.

An event is handled when it has arrived and the one before it is finished; only pacing takes time.
A command that fails is noted and the run goes on; only a failed stop is handed to the caller. After
each event the progress is published if it changed. Everything a run does is recorded with its time,
in the order in which it was done.

A clock that ends can break a run off: where the pacer has no slot for a launch, the program comes
down in the middle of an event, and the run neither goes on nor returns. That is how runs are
carried out. What a run would do on a clock without an end is the measure of that.
-/
namespace Rollout

/-- How a run ended. -/
inductive Outcome where
  /-- Every known host completed and the manager was stopped. -/
  | completed (hosts : Nat)
  /-- The events ended before that. -/
  | disconnected (progress : Progress)
  deriving DecidableEq, Repr

/-- Something a run does. -/
inductive Act where
  /-- A command, and the progress that was published when it was given. -/
  | command (command : Command) (published : Progress)
  | publish (progress : Progress)
  | note (entry : Entry)
  deriving DecidableEq, Repr

/-- Acts with their times. -/
abbrev Trace := List (Nat × Act)

/-- A run between two events. -/
structure Run (σ : Type) where
  scheduler : Scheduler
  pacer : Pacer
  /-- The state of the manager. -/
  manager : σ
  /-- The time at which the event before was finished. -/
  clock : Nat
  /-- The progress published last. -/
  published : Progress

/-- The way a run ended, once it has. -/
abbrev Ending := Except CommandError Outcome

namespace Run

variable {σ : Type}

/-- A run before the first event. -/
def initial (interval : Nat) (manager : σ) : Run σ :=
  ⟨.initial, .ofInterval interval, manager, 0, .initial⟩

/-! ### Entries -/

def launchFailedEntry (l : Launch) (e : CommandError) : Entry :=
  .error "launch failed; host will not be retried"
    [("hostname", l.task.hostname), ("task_id", l.task.id), ("offer_id", l.offerId),
     ("error", e.message)]

def declineFailedEntry (offers : List OfferId) (e : CommandError) : Entry :=
  .warn "failed to decline offers" [("offers", toString offers.length), ("error", e.message)]

def acknowledgeFailedEntry (status : TaskStatus) (e : CommandError) : Entry :=
  .warn "failed to acknowledge status update" [("task_id", status.taskId), ("error", e.message)]

def managerErrorEntry (message : String) : Entry :=
  .error "cluster manager reported an error" [("message", message)]

def disconnectedEntry (p : Progress) : Entry :=
  .warn "event stream closed before every host completed"
    [("completed", toString p.completed), ("known", toString p.known)]

/-! ### Single acts -/

/-- Gives a command, and notes what `onError` says if it fails. -/
def command (m : Manager σ) (c : Command) (onError : CommandError → Entry) (s : Run σ) :
    Run σ × Trace :=
  let (answer, manager) := m.perform c s.manager
  let acts := match answer with
    | .ok () => []
    | .error e => [(s.clock, .note (onError e))]
  ({ s with manager }, (s.clock, .command c s.published) :: acts)

/-- Launches as soon as the pacing allows. -/
def launch (m : Manager σ) (s : Run σ) (l : Launch) : Run σ × Trace :=
  let (clock, pacer) := s.pacer.ready s.clock
  command m (.launch l.offerId l.task) (launchFailedEntry l) { s with clock, pacer }

/-- Launches one after the other. -/
def launchAll (m : Manager σ) (s : Run σ) : List Launch → Run σ × Trace
  | [] => (s, [])
  | l :: ls =>
    let (s, first) := launch m s l
    let (s, rest) := launchAll m s ls
    (s, first ++ rest)

/-- Hands unused offers back, if there are any. -/
def decline (m : Manager σ) (offers : List OfferId) (s : Run σ) : Run σ × Trace :=
  if offers.isEmpty then (s, [])
  else command m (.decline offers) (declineFailedEntry offers) s

/-- Acknowledges a report that asks for it. -/
def acknowledge (m : Manager σ) (status : TaskStatus) (s : Run σ) : Run σ × Trace :=
  if status.uuid.isNone then (s, [])
  else command m (.acknowledge status) (acknowledgeFailedEntry status) s

/-- Publishes the progress if it changed. -/
def publish (s : Run σ) : Run σ × Trace :=
  let p := s.scheduler.progress
  if p = s.published then (s, []) else ({ s with published := p }, [(s.clock, .publish p)])

/-- Stops the manager, which ends the run. -/
def stop (m : Manager σ) (s : Run σ) : Run σ × Trace × Ending :=
  let (answer, manager) := m.perform .stop s.manager
  let ending := match answer with
    | .ok () => .ok (.completed s.scheduler.registry.knownCount)
    | .error e => .error e
  ({ s with manager }, [(s.clock, .command .stop s.published)], ending)

/-! ### Events -/

/-- Handles offers. -/
def handleOffers (m : Manager σ) (d : Dispatcher) (offers : List Offer) (s : Run σ) :
    Run σ × Trace :=
  let (scheduler, dispatch) := s.scheduler.handleOffers d offers
  let (s, launched) := launchAll m { s with scheduler } dispatch.launches
  let (s, declined) := decline m dispatch.declined s
  (s, launched ++ declined)

/-- Handles a report; the decision says whether it was the last one. -/
def handleStatus (m : Manager σ) (status : TaskStatus) (s : Run σ) : Run σ × Trace × Decision :=
  let (scheduler, decision, entries) := s.scheduler.handleStatus status
  let notes := entries.map fun e => (s.clock, Act.note e)
  let (s, acts) := acknowledge m status { s with scheduler }
  (s, notes ++ acts, decision)

/-- What an event makes a run do before it publishes. -/
def react (m : Manager σ) (d : Dispatcher) (s : Run σ) : Event → Run σ × Trace × Decision
  | .registered _ => (s, [], .proceed)
  | .rescinded _ => (s, [], .proceed)
  | .error message => (s, [(s.clock, .note (managerErrorEntry message))], .proceed)
  | .offers batch =>
    let (s, acts) := handleOffers m d batch s
    (s, acts, .proceed)
  | .status status => handleStatus m status s

/-- Publishes what an event led to, and stops if it was the last one; also says how the run ended,
if it did. -/
def conclude (m : Manager σ) (s : Run σ) (acts : Trace) :
    Decision → Run σ × Trace × Option Ending
  | .proceed =>
    let (s, shown) := publish s
    (s, acts ++ shown, none)
  | .terminate =>
    let (s, shown) := publish s
    let (s, last, ending) := stop m s
    (s, acts ++ shown ++ last, some ending)

/-- Handles an event that arrived at `arrival`; also says how the run ended, if it did. -/
def handle (m : Manager σ) (d : Dispatcher) (s : Run σ) (arrival : Nat) (e : Event) :
    Run σ × Trace × Option Ending :=
  let (s, acts, decision) := react m d { s with clock := max s.clock arrival } e
  conclude m s acts decision

/-- The end of the events, at time `closing`, before every host completed. -/
def disconnect (s : Run σ) (closing : Nat) : Run σ × Trace × Ending :=
  let clock := max s.clock closing
  let p := s.scheduler.progress
  ({ s with clock }, [(clock, .note (disconnectedEntry p))], .ok (.disconnected p))

/-- A finished run. -/
structure Report (σ : Type) where
  final : Run σ
  trace : Trace
  ending : Ending
  /-- The events that came too late to be handled. -/
  unread : List (Nat × Event)

/-- Handles events, each with the time of its arrival, until the run ends. -/
def follow (m : Manager σ) (d : Dispatcher) (closing : Nat) (s : Run σ) :
    List (Nat × Event) → Report σ
  | [] =>
    let (s, acts, ending) := disconnect s closing
    ⟨s, acts, ending, []⟩
  | (arrival, e) :: rest =>
    match handle m d s arrival e with
    | (s, acts, some ending) => ⟨s, acts, ending, rest⟩
    | (s, acts, none) =>
      let report := follow m d closing s rest
      { report with trace := acts ++ report.trace }

/-! ### On a clock that ends -/

/-- The end of a run that may have broken off: how it returned, if it did. -/
abbrev Close := Option Ending

/-- Launches one after the other as long as there are slots; also gives the launches that are
left. -/
def launchUntil (m : Manager σ) (horizon : Nat) (s : Run σ) :
    List Launch → Run σ × Trace × List Launch
  | [] => (s, [], [])
  | l :: ls =>
    match s.pacer.ready? horizon s.clock with
    | none => (s, [], l :: ls)
    | some (clock, pacer) =>
      let (s, first) :=
        command m (.launch l.offerId l.task) (launchFailedEntry l) { s with clock, pacer }
      let (s, rest, left) := launchUntil m horizon s ls
      (s, first ++ rest, left)

/-- What an event makes a run do before it publishes, and whether it was the last one, unless the
run breaks off. -/
def reactUntil (m : Manager σ) (d : Dispatcher) (horizon : Nat) (s : Run σ) :
    Event → Run σ × Trace × Option Decision
  | .offers batch =>
    let (scheduler, dispatch) := s.scheduler.handleOffers d batch
    match launchUntil m horizon { s with scheduler } dispatch.launches with
    | (s, launched, []) =>
      let (s, declined) := decline m dispatch.declined s
      (s, launched ++ declined, some .proceed)
    | (s, launched, _ :: _) => (s, launched, none)
  | e =>
    let (s, acts, decision) := react m d s e
    (s, acts, some decision)

/-- Handles an event that arrived at `arrival`; also gives the end of the run, if it came. -/
def handleUntil (m : Manager σ) (d : Dispatcher) (horizon : Nat) (s : Run σ) (arrival : Nat)
    (e : Event) : Run σ × Trace × Option Close :=
  match reactUntil m d horizon { s with clock := max s.clock arrival } e with
  | (s, acts, none) => (s, acts, some none)
  | (s, acts, some decision) =>
    let (s, acts, ending) := conclude m s acts decision
    (s, acts, ending.map some)

/-- A run that returned or broke off. -/
structure Course (σ : Type) where
  final : Run σ
  trace : Trace
  close : Close
  /-- The events that were not looked at. -/
  unread : List (Nat × Event)

/-- Handles events, each with the time of its arrival, until the run returns or breaks off. -/
def followUntil (m : Manager σ) (d : Dispatcher) (closing horizon : Nat) (s : Run σ) :
    List (Nat × Event) → Course σ
  | [] =>
    let (s, acts, ending) := disconnect s closing
    ⟨s, acts, some ending, []⟩
  | (arrival, e) :: rest =>
    match handleUntil m d horizon s arrival e with
    | (s, acts, some close) => ⟨s, acts, close, rest⟩
    | (s, acts, none) =>
      let course := followUntil m d closing horizon s rest
      { course with trace := acts ++ course.trace }

/-- The time at which a run returned or broke off. -/
def Course.endTime (c : Course σ) : Nat := c.final.clock

end Run

/-! ### Views of a trace -/

namespace Trace

/-- The acts before a time. -/
def before (t : Trace) (stop : Nat) : Trace := t.filter fun a => a.1 < stop

/-- The acts from a time on. -/
def since (t : Trace) (start : Nat) : Trace := t.filter fun a => start ≤ a.1

/-- The acts from `start` on and before `stop`. -/
def during (t : Trace) (start stop : Nat) : Trace := (t.since start).before stop

/-- The commands with their times and the progress shown at that moment. -/
def commands (t : Trace) : List (Nat × Command × Progress) :=
  t.filterMap fun
    | (time, .command c shown) => some (time, c, shown)
    | _ => none

/-- The published pictures with their times. -/
def published (t : Trace) : List (Nat × Progress) :=
  t.filterMap fun
    | (time, .publish p) => some (time, p)
    | _ => none

/-- The journal entries with their times. -/
def notes (t : Trace) : List (Nat × Entry) :=
  t.filterMap fun
    | (time, .note e) => some (time, e)
    | _ => none

/-- The progress that is published at the end of a trace. -/
def lastPublished (t : Trace) : Progress := (t.published.getLast?.map (·.2)).getD .initial

end Trace

end Rollout
