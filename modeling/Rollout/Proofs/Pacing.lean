import Rollout.Proofs.Timetable

/-!
The times of a run.

A run keeps a timetable. Its clock stands at the last command of a turn, and the pacer knows the
last launch, so that a launch that waits for the pacer goes out in its slot. Neither what the
manager answers nor what is noted or published takes any time. The timetable is made for a clock
without an end; on any other, it is kept up to the first slot behind the horizon.
-/
namespace Rollout

/-- The commands of a trace with their times. -/
def Trace.calls (t : Trace) : List (Nat × Command) := t.commands.map fun c => (c.1, c.2.1)

theorem Trace.calls_append (a b : Trace) : calls (a ++ b) = calls a ++ calls b := by
  rw [calls, commands, List.filterMap_append, List.map_append]
  rfl

theorem Trace.calls_prefix {a b : Trace} (h : a <+: b) : calls a <+: calls b :=
  (h.filterMap _).map _

theorem Trace.map_calls (t : Trace) : t.calls.map (·.2) = t.given := List.map_map

namespace Run

variable {σ : Type} {m : Manager σ} {d : Dispatcher} {s s' s'' : Run σ} {interval start : Nat}

/-! ### Within a turn -/

/-- The clock of a turn stands at its start or at its last launch. -/
structure OnTime (interval start : Nat) (s : Run σ) : Prop where
  interval : s.pacer.interval = interval
  start_le : start ≤ s.clock
  last_le : s.pacer.last.getD 0 ≤ s.clock
  idle : s.clock = start ∨ s.pacer.last = some s.clock

/-- The pacer gives each launch its slot. -/
theorem OnTime.due_eq (h : OnTime interval start s) :
    s.pacer.due s.clock = Pacer.slot interval start s.pacer.last := by
  obtain ⟨hinterval, hstart, hlast, hidle⟩ := h
  rw [Pacer.due, hinterval]
  cases hl : s.pacer.last with
  | none =>
    rw [hl] at hidle
    exact hidle.resolve_right (Option.some_ne_none s.clock).symm
  | some last =>
    rw [hl, Option.getD_some] at hlast
    rw [hl, Option.some.injEq] at hidle
    simp only [Pacer.slot]
    split <;> omega

/-- From one state of a run to the other time passed by launches alone, each in its slot. -/
structure Paces (interval start : Nat) (s s' : Run σ) (t : Trace) : Prop where
  onTime : OnTime interval start s'
  clock : s'.clock = (t.calls.map (·.1)).getLastD s.clock
  last : s'.pacer.last = ((launchTimes t.calls).map some).getLastD s.pacer.last
  inSlots : InSlots interval s.pacer.last ((launchTimes t.calls).map (start, ·))
  prompt : Prompt s.clock t.calls

theorem OnTime.paces_nil (h : OnTime interval start s) : Paces interval start s s [] :=
  ⟨h, rfl, rfl, trivial, trivial⟩

theorem Paces.trans {t t' : Trace} (h : Paces interval start s s' t)
    (h' : Paces interval start s' s'' t') : Paces interval start s s'' (t ++ t') := by
  obtain ⟨-, hclock, hlast, hslots, hprompt⟩ := h
  obtain ⟨honTime', hclock', hlast', hslots', hprompt'⟩ := h'
  have htimes : launchTimes (t.calls ++ t'.calls) = launchTimes t.calls ++ launchTimes t'.calls :=
    List.filterMap_append
  rw [hclock] at hclock' hprompt'
  rw [hlast] at hlast' hslots'
  constructor
  · exact honTime'
  · rw [hclock', Trace.calls_append, List.map_append, getLastD_append]
  · rw [hlast', Trace.calls_append, htimes, List.map_append, getLastD_append]
  · rw [Trace.calls_append, htimes, List.map_append]
    exact inSlots_append.2 ⟨hslots, hslots'⟩
  · rw [Trace.calls_append]
    exact threaded_append.2 ⟨hprompt, hprompt'⟩

/-- Only a launch takes time, until its slot comes. -/
theorem paces_of_deed {t : Trace} {cs : List Command} (h : Deed m s s' t cs)
    (hs : OnTime interval start s) : Paces interval start s s' t := by
  cases h with
  | note e => exact ⟨hs, rfl, rfl, trivial, trivial⟩
  | give c other =>
    have htimes : launchTimes [(s.clock, c)] = [] := launchTimes_cons_of_none other []
    refine ⟨⟨hs.interval, hs.start_le, hs.last_le, hs.idle⟩, rfl, ?_, ?_, fun _ => rfl, trivial⟩
    · exact congrArg (fun times => (times.map some).getLastD s.pacer.last) htimes.symm
    · exact htimes.symm ▸ trivial
  | launch l =>
    have hdue := hs.due_eq
    have hready : start ≤ s.pacer.due s.clock := hdue ▸ Pacer.ready_le_slot ..
    exact ⟨⟨hs.interval, hready, le_rfl, .inr rfl⟩, rfl, rfl, ⟨hdue, trivial⟩, nofun, trivial⟩

theorem paces_of_deeds {t : Trace} {cs : List Command} (h : Deeds m s s' t cs)
    (hs : OnTime interval start s) : Paces interval start s s' t := by
  induction h with
  | nil => exact hs.paces_nil
  | cons first _ ih =>
    have hfirst := paces_of_deed first hs
    exact hfirst.trans (ih hfirst.onTime)

theorem paces_publish (hs : OnTime interval start s) :
    Paces interval start s (publish s).1 (publish s).2 := by
  simp only [publish]
  split
  · exact hs.paces_nil
  · exact ⟨⟨hs.interval, hs.start_le, hs.last_le, hs.idle⟩, rfl, rfl, trivial, trivial⟩

theorem paces_stop (hs : OnTime interval start s) (m : Manager σ) :
    Paces interval start s (stop m s).1 (stop m s).2.1 :=
  ⟨⟨hs.interval, hs.start_le, hs.last_le, hs.idle⟩, rfl, rfl, trivial, fun _ => rfl, trivial⟩

/-- Between two turns the clock is not behind the last launch. -/
structure Timely (interval : Nat) (s : Run σ) : Prop where
  interval : s.pacer.interval = interval
  last_le : s.pacer.last.getD 0 ≤ s.clock

theorem OnTime.timely (h : OnTime interval start s) : Timely interval s := ⟨h.interval, h.last_le⟩

theorem paces_handle (hs : Timely interval s) (m : Manager σ) (d : Dispatcher) (arrival : Nat)
    (e : Event) : Paces interval (max s.clock arrival) { s with clock := max s.clock arrival }
      (handle m d s arrival e).1 (handle m d s arrival e).2.1 := by
  have hstart : OnTime interval (max s.clock arrival)
      { s with
        clock := max s.clock arrival
        scheduler := Scheduler.after d s.scheduler e.input?.toList } :=
    ⟨hs.interval, le_rfl, hs.last_le.trans (Nat.le_max_left _ _), .inl rfl⟩
  have hreact := paces_of_deeds (deeds_react m d { s with clock := max s.clock arrival } e) hstart
  have hshown := hreact.trans (paces_publish hreact.onTime)
  simp only [handle]
  cases (react m d { s with clock := max s.clock arrival } e).2.2 with
  | proceed => exact ⟨hshown.onTime, hshown.clock, hshown.last, hshown.inSlots, hshown.prompt⟩
  | terminate =>
    have hall := hshown.trans (paces_stop hshown.onTime m)
    exact ⟨hall.onTime, hall.clock, hall.last, hall.inSlots, hall.prompt⟩

/-! ### Whole runs -/

/-- The turns of a run with their times. -/
def timedTurns (m : Manager σ) (d : Dispatcher) (s : Run σ) : List (Nat × Event) → List TimedTurn
  | [] => []
  | (arrival, e) :: rest =>
    match handle m d s arrival e with
    | (_, acts, some _) => [⟨arrival, e, max s.clock arrival, acts.calls⟩]
    | (s', acts, none) => ⟨arrival, e, max s.clock arrival, acts.calls⟩ :: timedTurns m d s' rest

theorem timetable_timedTurns (hs : Timely interval s) (m : Manager σ) (d : Dispatcher)
    (events : List (Nat × Event)) :
    Timetable interval s.clock s.pacer.last (timedTurns m d s events) := by
  induction events generalizing s with
  | nil => exact .nil
  | cons first rest ih =>
    obtain ⟨arrival, e⟩ := first
    have hpaces := paces_handle hs m d arrival e
    rw [timedTurns]
    split
    · next heq =>
      rw [heq] at hpaces
      exact Timetable.cons_iff.2 ⟨Nat.max_comm .., hpaces.inSlots, hpaces.prompt, .nil⟩
    · next s' acts heq =>
      rw [heq] at hpaces
      refine Timetable.cons_iff.2 ⟨Nat.max_comm .., hpaces.inSlots, hpaces.prompt, ?_⟩
      have hlater := ih hpaces.onTime.timely
      rwa [hpaces.clock, hpaces.last] at hlater

theorem unread_eq (m : Manager σ) (d : Dispatcher) (closing : Nat) (s : Run σ)
    (events : List (Nat × Event)) : events =
      (timedTurns m d s events).map (fun t => (t.arrival, t.event)) ++
        (follow m d closing s events).unread := by
  induction events generalizing s with
  | nil => rfl
  | cons first rest ih =>
    obtain ⟨arrival, e⟩ := first
    rcases heq : handle m d s arrival e with ⟨s', acts, ending⟩
    rw [timedTurns, follow, heq]
    cases ending with
    | some ending => rfl
    | none => exact congrArg ((arrival, e) :: ·) (ih s')

theorem calls_follow (m : Manager σ) (d : Dispatcher) (closing : Nat) (s : Run σ)
    (events : List (Nat × Event)) : (follow m d closing s events).trace.calls =
      (timedTurns m d s events).flatMap (·.calls) := by
  induction events generalizing s with
  | nil => rfl
  | cons first rest ih =>
    obtain ⟨arrival, e⟩ := first
    rcases heq : handle m d s arrival e with ⟨s', acts, ending⟩
    rw [timedTurns, follow, heq]
    cases ending with
    | some ending => exact (List.append_nil _).symm
    | none =>
      dsimp only
      rw [Trace.calls_append, ih s', List.flatMap_cons]

/-- The commands of a turn are those that its event calls for. -/
theorem map_calls_timedTurns (h : s.scheduler.done = false) (m : Manager σ) (d : Dispatcher)
    (events : List (Nat × Event)) :
    (timedTurns m d s events).map (fun t => t.calls.map (·.2)) =
      (Scheduler.turns d s.scheduler (events.map (·.2))).map fun t => t.1.calls d t.2 := by
  induction events generalizing s with
  | nil => rfl
  | cons first rest ih =>
    obtain ⟨arrival, e⟩ := first
    have hends := Scheduler.ends_eq (d := d) h e
    rw [timedTurns, List.map_cons, Scheduler.turns, List.map_cons, Scheduler.calls]
    cases hnext : (Scheduler.after d s.scheduler e.input?.toList).done with
    | true =>
      obtain ⟨s', t, heq, hgives⟩ := handle_of_done h hnext m arrival
      rw [heq, hends, hnext]
      simp only [List.map_cons, List.map_nil, Trace.map_calls, hgives.given, if_true]
    | false =>
      obtain ⟨s', t, heq, hgives⟩ := handle_of_not_done h hnext m arrival
      have hstill : s'.scheduler.done = false := (congrArg Scheduler.done hgives.scheduler).trans hnext
      rw [heq, hends, hnext]
      simp only [List.map_cons, Trace.map_calls, hgives.given, ih hstill, hgives.scheduler,
        Bool.false_eq_true, if_false, List.append_nil]

/-- A run that returns has given the commands of its turns; one that breaks off, those in front of a
launch whose slot lies behind the horizon. -/
theorem calls_followUntil (m : Manager σ) (d : Dispatcher) (closing horizon : Nat) (s : Run σ)
    (events : List (Nat × Event)) :
    let course := followUntil m d closing horizon s events
    let turns := timedTurns m d s events
    (∀ ending, course.close = some ending →
      events = turns.map (fun t => (t.arrival, t.event)) ++ course.unread ∧
      course.trace.calls = turns.flatMap (·.calls)) ∧
    (course.close = none → ∃ (l : Launch) (time : Nat), horizon < time ∧
      course.trace.calls ++ [(time, l.command)] <+: turns.flatMap (·.calls)) := by
  intro course turns
  have hcalls : (follow m d closing s events).trace.calls = turns.flatMap (·.calls) :=
    calls_follow m d closing s events
  refine ⟨fun ending hclose => ?_, fun hclose => ?_⟩
  · obtain ⟨heq, -⟩ := followUntil_of_close hclose
    rw [show course = _ from heq]
    exact ⟨unread_eq m d closing s events, hcalls⟩
  · obtain ⟨l, time, seen, htime, hprefix⟩ := exists_launch_of_close hclose
    have hprefix := Trace.calls_prefix hprefix
    rw [Trace.calls_append, hcalls] at hprefix
    exact ⟨l, time, htime, hprefix⟩

/-- Whatever the manager answers: events are handled in the order of their arrival, each as soon as
it has arrived and the turn before is over. A launch is given in its slot, which is the start of its
turn for the first one and never sooner than the interval after the launch before it for any other,
so that `k` launches further on it is at least `k` intervals later. Every other command is given
with the one before it. No launch could be earlier in any plan that keeps the order and the
interval, and the run is such a plan. With the interval zero launches are not delayed. A run that
breaks off keeps to this up to a launch whose slot lies behind the horizon, and it breaks off only
if the interval is not zero and ends behind the horizon, too, after the last launch that it gave. -/
theorem launches_in_slots (m : Manager σ) (d : Dispatcher) (interval closing horizon : Nat)
    (manager : σ) (events : List (Nat × Event)) :
    let start := initial interval manager
    let course := followUntil m d closing horizon start events
    let turns := timedTurns m d start events
    let launches := turns.flatMap TimedTurn.launches
    (∀ ending, course.close = some ending →
      events = turns.map (fun t => (t.arrival, t.event)) ++ course.unread ∧
      course.trace.calls = turns.flatMap (·.calls)) ∧
    (course.close = none →
      (interval ≠ 0 ∧ ∃ last ∈ course.final.pacer.last, horizon < last + interval) ∧
      turns.map (fun t => (t.arrival, t.event)) <+: events ∧
      ∃ (l : Launch) (time : Nat), horizon < time ∧
        course.trace.calls ++ [(time, l.command)] <+: turns.flatMap (·.calls)) ∧
    turns.map (fun t => t.calls.map (·.2)) =
      (Scheduler.turns d .initial (events.map (·.2))).map (fun t => t.1.calls d t.2) ∧
    TimedTurn.Consecutive 0 turns ∧ InSlots interval none launches ∧
    (∀ t ∈ turns, Prompt t.start t.calls) ∧
    (∀ i k a b : Nat, (launches.map (·.2))[i]? = some a → (launches.map (·.2))[i + k]? = some b →
      a + k * interval ≤ b) ∧
    Feasible interval turns (turns.map fun t => (t.start, t.launches.map (·.2))) ∧
    (∀ plan, Feasible interval turns plan →
      List.Forall₂ (· ≤ ·) (launches.map (·.2)) (plan.flatMap (·.2))) ∧
    (interval = 0 → (∀ t ∈ turns, ∀ l ∈ t.launches, l.2 = t.start) ∧
      ((events.map (·.1)).Pairwise (· ≤ ·) → ∀ t ∈ turns, t.start = t.arrival)) := by
  intro start course turns launches
  have hevents : events = turns.map (fun t => (t.arrival, t.event)) ++ _ :=
    unread_eq m d closing start events
  obtain ⟨hreturned, hbroken⟩ := calls_followUntil m d closing horizon start events
  have htimely : Timely interval start := ⟨rfl, le_rfl⟩
  have htimetable : Timetable interval 0 none turns := timetable_timedTurns htimely m d events
  refine ⟨hreturned, fun hclose => ⟨overflow_of_close hclose, ⟨_, hevents.symm⟩, hbroken hclose⟩,
    map_calls_timedTurns rfl m d events, htimetable.consecutive, htimetable.inSlots,
    htimetable.prompt, fun i k a b ha hb => ?_, htimetable.feasible,
    fun plan => htimetable.le_of_feasible, ?_⟩
  · exact add_mul_le_of_spaced (spaced_of_inSlots htimetable.inSlots) ha hb
  · rintro rfl
    have hunpaced := htimetable.unpaced le_rfl
    refine ⟨fun t ht => (hunpaced t ht).2, fun hsorted => ?_⟩
    refine htimetable.punctual (fun t ht => (hunpaced t ht).1) (fun t _ => Nat.zero_le _) ?_
    rw [hevents, List.map_append, List.map_map] at hsorted
    exact List.pairwise_map.1 (List.pairwise_append.1 hsorted).1

/-- The second batch waits for the first one, and a failed launch counts for the pace. -/
example :
    let course := followUntil Manager.scripted Sample.dispatcher 9 Wait.horizon
      (initial 250 [.error .stopped])
      [(5, .offers [Sample.offer "o1" "h1", Sample.offer "o2" "h2"]),
        (10, .offers [Sample.offer "o3" "h3", Sample.offer "o4" "h3"])]
    course.trace.calls.map (·.1) = [5, 255, 505, 505] := by decide

/-- The slot of the second batch is a time that no clock can tell, so that its launch does not go
out in it, nor at any other time. -/
theorem launch_without_slot :
    let events : List (Nat × Event) :=
      [(5, .offers [Sample.offer "o1" "h1"]), (10, .offers [Sample.offer "o2" "h2"])]
    let start : Run (List (Except CommandError Unit)) := initial 18446744073709551615000 []
    let course := followUntil Manager.scripted Sample.dispatcher 9 Wait.horizon start events
    ((timedTurns Manager.scripted Sample.dispatcher start events).flatMap TimedTurn.launches).map
        (·.2) = [5, 18446744073709551615005] ∧
      course.trace.calls.map (·.1) = [5] ∧ course.close = none := by
  decide

end Run

end Rollout
