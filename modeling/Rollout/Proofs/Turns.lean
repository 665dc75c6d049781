import Rollout.Proofs.Horizon
import Rollout.Proofs.Launching
import Rollout.Proofs.Twins
import Rollout.Wait

/-!
The turns of a run.

Each event that is handled is one turn: it meets the scheduler as the turns before left it, and it
has commands of its own, which are given one after the other before the next turn begins. The turns
come from the events alone. So do, then, all that a run asks of the manager and the scheduler that
it leaves, whatever the manager answers and however long launches have to wait. Only a wait that
ends behind the horizon of the clock cuts the commands off, in front of a launch.
-/
namespace Rollout

namespace Scheduler

/-- The event is a report that is answered by an end. -/
def ends (s : Scheduler) : Event → Bool
  | .status status => (s.handleStatus status).2.1 = .terminate
  | .offers _ | .registered _ | .rescinded _ | .error _ => false

/-- The commands of a turn: for offers, the launches on them in their order, then one decline of all
other offers if there are any; for a report, its acknowledgement if it asks for one, then a stop if
the report ends the run; and none for any other event. -/
def calls (d : Dispatcher) (s : Scheduler) (e : Event) : List Command :=
  s.reply d e ++ if s.ends e then [.stop] else []

/-- The events that are handled, each with the scheduler that it meets. -/
def turns (d : Dispatcher) (s : Scheduler) : List Event → List (Scheduler × Event)
  | [] => []
  | e :: rest => (s, e) :: if s.ends e then [] else turns d (after d s e.input?.toList) rest

variable {d : Dispatcher} {s : Scheduler}

/-- The report that ends a run is the one that makes the scheduler done. -/
theorem ends_eq (h : s.done = false) (e : Event) :
    s.ends e = (after d s e.input?.toList).done := by
  cases e with
  | status status =>
    rw [Bool.eq_iff_iff]
    exact decide_eq_true_iff.trans (handleStatus_eq_terminate_iff s status)
  | offers batch => exact (congrArg (·.1.done) (handleOffers_of_not_done (d := d) h batch)).symm
  | registered _ | rescinded _ | error _ => exact h.symm

theorem handled_cons (h : s.done = false) (arrival : Nat) (e : Event)
    (rest : List (Nat × Event)) : handled d s ((arrival, e) :: rest) = (arrival, e) ::
      if s.ends e then [] else handled d (after d s e.input?.toList) rest := by
  rw [handled, ends_eq (d := d) h]
  split <;> rfl

/-- What has a turn are the events that are handled. -/
theorem map_turns (h : s.done = false) (events : List (Nat × Event)) :
    (turns d s (events.map (·.2))).map (·.2) = (handled d s events).map (·.2) := by
  induction events generalizing s with
  | nil => rfl
  | cons first rest ih =>
    rw [handled_cons h, List.map_cons, List.map_cons, turns, List.map_cons]
    cases hend : s.ends first.2 with
    | true => rfl
    | false =>
      rw [ends_eq (d := d) h] at hend
      exact congrArg (first.2 :: ·) (ih hend)

/-- The commands of all turns are the replies to what is handled, and a stop once done. -/
theorem flatMap_calls (h : s.done = false) (events : List (Nat × Event)) :
    ((turns d s (events.map (·.2))).flatMap fun t => t.1.calls d t.2)
      = s.replies d (handled d s events) ++
        if (after d s (Event.inputs (handled d s events))).done then [.stop] else [] := by
  induction events generalizing s with
  | nil => rw [handled, replies]; simp [turns, Event.inputs, after, h]
  | cons first rest ih =>
    obtain ⟨arrival, e⟩ := first
    rw [handled_cons h, List.map_cons, turns, List.flatMap_cons, replies, Event.inputs_cons,
      after_append, calls]
    cases hend : s.ends e with
    | true =>
      rw [ends_eq (d := d) h] at hend
      simp [replies, Event.inputs, after_of_done hend, hend]
    | false =>
      rw [ends_eq (d := d) h] at hend
      simp [ih hend]

/-- The answers to one batch are in its order. -/
theorem answers_handleOffers (s : Scheduler) (batch : List Offer) :
    Dispatcher.Answers batch (s.handleOffers d batch).2.launches
      (s.handleOffers d batch).2.declined :=
  (List.forall₂_cons.1 (answers_dispatches s [.offers batch])).1

end Scheduler

namespace Run

variable {σ : Type} {m : Manager σ} {d : Dispatcher} {s : Run σ} {events : List (Nat × Event)}
  {report : Report σ}

theorem Follows.given_turns (h : Follows m d s events report) (hopen : s.scheduler.done = false) :
    report.trace.given =
      (Scheduler.turns d s.scheduler (events.map (·.2))).flatMap fun t => t.1.calls d t.2 := by
  rw [h.given, h.scheduler, Scheduler.flatMap_calls hopen]

/-- Whatever the manager answers, however launches are paced and whenever events arrive: the offers
of each batch are answered in their order, and nothing is asked of the manager after a stop. A run
that returns has handled the events that have a turn; what it asked of the manager is what its turns
call for, one turn after the other; and the scheduler is left as these events make it. A run breaks
off only if the interval from its last launch ends behind the horizon. Then what it asked is what
its turns call for, cut off in front of a launch, and the scheduler is left as the events make it up
to the one that was being handled. -/
theorem given_eq_calls (m : Manager σ) (d : Dispatcher) (interval closing horizon : Nat)
    (manager : σ) (events : List (Nat × Event)) :
    let course := followUntil m d closing horizon (initial interval manager) events
    let turns := Scheduler.turns d .initial (events.map (·.2))
    let calls := turns.flatMap fun t => t.1.calls d t.2
    (∀ s batch, (s, .offers batch) ∈ turns → Dispatcher.Answers batch
      (s.handleOffers d batch).2.launches (s.handleOffers d batch).2.declined) ∧
    (∀ before later, course.trace.given = before ++ .stop :: later → later = []) ∧
    (∀ ending, course.close = some ending →
      events.map (·.2) = turns.map (·.2) ++ course.unread.map (·.2) ∧
      course.trace.given = calls ∧
      course.final.scheduler = Scheduler.after d .initial (turns.filterMap (·.2.input?))) ∧
    (course.close = none →
      (∃ last ∈ course.final.pacer.last, horizon < last + interval) ∧
      (∃ l : Launch, course.trace.given ++ [l.command] <+: calls) ∧
      ∃ handled, events = handled ++ course.unread ∧
        course.final.scheduler = Scheduler.after d .initial (Event.inputs handled)) ∧
    ∀ (τ : Type) (m' : Manager τ) (manager' : τ),
      let other := followUntil m' d closing horizon (initial interval manager') events
      course.trace.commands = other.trace.commands ∧
      course.final.scheduler = other.final.scheduler ∧
      course.close.isSome = other.close.isSome ∧ course.unread = other.unread := by
  intro course turns calls
  let start : Run σ := initial interval manager
  have hf : Follows m d start events (follow m d closing start events) :=
    follows_follow rfl m closing events
  have hcalls : (follow m d closing start events).trace.given = calls := hf.given_turns rfl
  refine ⟨fun s batch _ => Scheduler.answers_handleOffers s batch, fun before later hstop => ?_,
    fun ending hclose => ?_, fun hclose => ?_, fun τ m' manager' => ?_⟩
  · obtain ⟨more, hmore⟩ :=
      Trace.given_prefix (trace_followUntil m d closing horizon start events)
    have hsame : course.trace.given ++ more = _ := hmore
    rw [hstop, List.append_assoc, List.cons_append] at hsame
    exact (List.append_eq_nil_iff.1 (hf.nil_of_stop hsame.symm)).1
  · obtain ⟨heq, -⟩ := followUntil_of_close hclose
    have hturns : turns.map (·.2) = (Scheduler.handled d .initial events).map (·.2) :=
      Scheduler.map_turns rfl events
    have hinputs : turns.filterMap (·.2.input?)
        = Event.inputs (Scheduler.handled d .initial events) := by
      have hmap := congrArg (List.filterMap Event.input?) hturns
      rwa [List.filterMap_map, List.filterMap_map] at hmap
    rw [show course = _ from heq]
    refine ⟨?_, hcalls, ?_⟩
    · rw [hturns, ← List.map_append]
      exact congrArg _ hf.unread
    · rw [hinputs]
      exact hf.scheduler
  · obtain ⟨l, time, seen, -, hprefix⟩ := exists_launch_of_close hclose
    refine ⟨(overflow_of_close hclose).2, ⟨l, ?_⟩, exists_handled rfl m d closing horizon events⟩
    have hgiven := Trace.given_prefix hprefix
    rw [Trace.given_append, hcalls] at hgiven
    exact hgiven
  · obtain ⟨hfinal, halike, hclose, hunread⟩ :=
      (twins_initial interval manager manager').followUntil m m' d closing horizon events
    exact ⟨halike.commands, hfinal.scheduler, hclose, hunread⟩

/-- An interval that no clock can tell keeps the second launch and the decline back, a shorter one
keeps nothing back. -/
theorem given_cut_by_interval :
    let events : List (Nat × Event) :=
      [(0, .offers [Sample.offer "o1" "h1", Sample.offer "o2" "h2", Sample.offer "o3" "h1"])]
    let given (interval : Nat) : List Command :=
      (followUntil Manager.scripted Sample.dispatcher 0 Wait.horizon (initial interval [])
        events).trace.given
    let calls := (Scheduler.turns Sample.dispatcher .initial (events.map (·.2))).flatMap
      fun t => t.1.calls Sample.dispatcher t.2
    given 250 = calls ∧ calls.length = 3 ∧ (given 18446744073709551615000).length = 1 := by
  decide

end Run

end Rollout
