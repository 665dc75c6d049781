import Rollout.Duration
import Rollout.Journal
import Rollout.Progress
import Rollout.Text.Quoted
import Rollout.Wait

/-!
The stall watchdog: it reports whenever a run has made no progress for a while.

The watchdog waits for signals. Each time `timeout` passes without one it reports, with the progress
at that time, and starts to wait again. It ends as soon as the progress is done, when the progress
is no longer published, or when it is told to stop. It never sees a picture that another one
replaces at the same instant. Times are milliseconds on one clock.
-/
namespace Rollout

/-- What the watchdog hears of. -/
inductive Signal where
  /-- A picture was published, perhaps the same as before. -/
  | progress (p : Progress)
  /-- No more will be published. -/
  | progressClosed
  /-- The watchdog is told to stop, or can no longer be told. -/
  | shutdown
  deriving DecidableEq, Repr

namespace Watchdog

/-- What became of a watch: its reports, their count, and when it ended, if it did. -/
structure Watch where
  /-- The time of each report, and the progress at that time. -/
  reports : List (Nat × Progress)
  warnings : Nat
  ended : Option Nat
  deriving DecidableEq, Repr

/-- A signal brings a new picture at the time `since`, so the one before it is never seen. -/
def replaces (since : Nat) : Nat × Signal → Bool
  | (time, .progress _) => time == since
  | _ => false

/-- Watches with a wait that begins at `since`, after some reports, with the progress as it is then.
The wait runs out if the next signal comes later than that, and then another one begins. What
happens after the last signal is not followed, and a wait of no length never runs out. -/
def watchFrom (timeout warnings : Nat) (p : Progress) (since : Nat)
    (signals : List (Nat × Signal)) : Watch :=
  match signals with
  | [] => ⟨[], warnings, if p.isDone then some since else none⟩
  | (time, signal) :: rest =>
    let due := since + Wait.span timeout
    if p.isDone && !replaces since (time, signal) then ⟨[], warnings, some since⟩
    else if since < due ∧ due < time then
      let later := watchFrom timeout (warnings + 1) p due ((time, signal) :: rest)
      { later with reports := (due, p) :: later.reports }
    else
      match signal with
      | .progress q => watchFrom timeout warnings q time rest
      | .progressClosed => ⟨[], warnings, some time⟩
      | .shutdown => ⟨[], warnings, some time⟩
termination_by (signals.length, signals.head?.elim 0 (·.1) - since)

/-- Watches from the time zero on. -/
def watch (timeout : Nat) (initial : Progress) (signals : List (Nat × Signal)) : Watch :=
  watchFrom timeout 0 initial 0 signals

/-- The stalled hosts with their states, as a list. -/
def stalledText (p : Progress) : String :=
  Text.bracketed (p.stalled.map fun (host, state) => s!"({Text.quote host}, {state.title})")

/-- The entry for a report: an error if the run is blocked, and a warning otherwise. -/
def entry (timeout : Nat) (p : Progress) : Entry :=
  if p.isBlocked then
    .error "run cannot complete: every remaining host ended without success"
      [("completed", toString p.completed), ("known", toString p.known),
       ("stalled", stalledText p)]
  else
    .warn "no scheduling progress"
      [("phase", p.phase.text), ("completed", toString p.completed), ("known", toString p.known),
       ("waiting_for_offer", Text.bracketed (p.unserviced.map Text.quote)),
       ("in_flight", Text.bracketed (p.pending.map Text.quote)), ("stalled", stalledText p),
       ("idle", (Duration.ofMillis timeout).text)]

/-- The journal of a watch. -/
def Watch.entries (timeout : Nat) (w : Watch) : List (Nat × Entry) :=
  w.reports.map fun (time, p) => (time, entry timeout p)

end Watchdog

end Rollout
