import Rollout.Proofs.Ending
import Rollout.Proofs.Pacing

/-!
Where a completion comes from.

No host is completed but by a report that its own task has finished, which came after the task was
launched. This needs no assumption on identifiers: when two tasks have the same one, a report
reaches the host that got it last, and the other host waits for ever. So a run that ends can be
traced back, host by host, from its end to a report, and from the report to a launch.
-/
namespace Rollout

/-- The inputs of some events, cut at a report, are those of the events cut there. -/
theorem Event.exists_split_of_inputs {events : List (Nat × Event)} {early late : List Input}
    {report : TaskStatus} (h : inputs events = early ++ .report report :: late) :
    ∃ before arrival later, events = before ++ (arrival, .status report) :: later ∧
      inputs before = early := by
  obtain ⟨first, rest, rfl, hfirst, hrest⟩ := List.filterMap_eq_append_iff.1 h
  obtain ⟨gap, ⟨arrival, e⟩, later, rfl, hgap, he, -⟩ := List.filterMap_eq_cons_iff.1 hrest
  have hstatus : e = .status report := by
    cases e with
    | status status => cases he; rfl
    | offers | registered | rescinded | error => cases he
  refine ⟨first ++ gap, arrival, later, by rw [hstatus, List.append_assoc], ?_⟩
  rw [inputs, List.filterMap_append, hfirst, List.filterMap_eq_nil_iff.2 hgap, List.append_nil]

theorem Input.offered_append (a b : List Input) : offered (a ++ b) = offered a ++ offered b := by
  rw [offered, batches, List.filterMap_append, List.flatten_append]
  rfl

namespace Scheduler

variable {d : Dispatcher} {s : Scheduler} {host : Hostname} {task : TaskId} {inputs : List Input}

/-- Whoever is launched for has that task. -/
theorem taskOf?_of_mem_launches {l : Launch} (h : l ∈ launches d s inputs) :
    (after d s inputs).registry.taskOf? l.task.hostname = some l.task.id := by
  induction inputs generalizing s with
  | nil => cases h
  | cons input rest ih =>
    cases input with
    | report status => exact ih h
    | offers batch =>
      cases hdone : s.done with
      | true =>
        rw [launches_of_done hdone] at h
        cases h
      | false =>
        rw [launches_cons_offers] at h
        rcases List.mem_append.1 h with hnow | hlater
        · have hanswered := answered_step_offers (d := d) hdone batch
          rw [handleOffers_of_not_done hdone, Roster.dispatch_snd] at hnow
          exact Roster.taskOf?_of_moves (moves_after _ rest)
            (Registry.taskOf?_eq_some.2 ⟨_, hanswered.launched l hnow, rfl⟩)
        · exact ih hlater

/-! ### One step -/

/-- Offers complete no host. -/
theorem completed_of_step_offers {batch : List Offer}
    (h : (step d s (.offers batch)).registry.status? host = some (.completed task)) :
    s.registry.status? host = some (.completed task) := by
  cases hdone : s.done with
  | true => rwa [step_of_done hdone] at h
  | false =>
    have hanswered := answered_step_offers (d := d) hdone batch
    cases hserved : s.registry.isServiced host with
    | true => exact (hanswered.kept host hserved).symm.trans h
    | false =>
      -- a host that only now has a task was launched for, and its task is under way
      have hnow : (step d s (.offers batch)).registry.isServiced host = true := by
        rw [Registry.isServiced, h]
        rfl
      have hserve : Offer.serve s.registry.isServiced batch host = true :=
        (congrFun hanswered.served host).symm.trans hnow
      rw [Offer.serve, hserved, Bool.false_or, List.any_eq_true] at hserve
      obtain ⟨o, ho, hhost⟩ := hserve
      obtain ⟨first, hfirst, hname⟩ := Offer.mem_fresh_hosts.2 ⟨hserved, o, ho, beq_iff_eq.1 hhost⟩
      have hmem := List.mem_map_of_mem (f := (·.hostname)) hfirst
      rw [← Dispatcher.map_hostname_launches (d := d) s.roster.drawn, hname] at hmem
      obtain ⟨l, hl, rfl⟩ := List.mem_map.1 hmem
      cases h.symm.trans (hanswered.launched l hl)

/-- A report that completes a host says that the task of that host has finished. -/
theorem finished_of_step_report {report : TaskStatus} (hs : Sound d s)
    (hbefore : s.registry.status? host ≠ some (.completed task))
    (h : (step d s (.report report)).registry.status? host = some (.completed task)) :
    s.done = false ∧ report.state = .finished ∧ report.taskId = task ∧
      s.registry.taskOf? host = some task := by
  cases hdone : s.done with
  | true => exact absurd (step_of_done (d := d) hdone (.report report) ▸ h) hbefore
  | false =>
    rw [step, handleStatus_of_not_done hdone] at h
    have hstatus := (Roster.status?_absorb s.roster report host).symm.trans h
    have htask : s.registry.taskOf? host = some task :=
      (Roster.taskOf?_absorb s.roster report host).symm.trans
        (Registry.taskOf?_eq_some.2 ⟨_, h, rfl⟩)
    split at hstatus
    · next hof =>
      have hown : s.registry.taskOf? host = some report.taskId := hs.coherent.indexed hof
      obtain ⟨st, hst, hsettle⟩ := Option.map_eq_some_iff.1 hstatus
      have hsuccess : report.state.isSuccess = true := by
        by_contra hno
        refine hbefore (hst.trans (congrArg some ?_))
        rw [HostStatus.settle, if_neg hno] at hsettle
        split at hsettle
        · cases st with
          | completed => exact hsettle
          | seen | serviced | stalled => cases hsettle
        · exact hsettle
      exact ⟨rfl, HostStatus.isSuccess_iff.1 hsuccess,
        Option.some.inj (hown.symm.trans htask), htask⟩
    · exact absurd hstatus hbefore

/-! ### Whole histories -/

/-- A host that has become completed had its task before the report that said so. -/
theorem exists_finished (hs : Sound d s)
    (hbefore : s.registry.status? host ≠ some (.completed task))
    (h : (after d s inputs).registry.status? host = some (.completed task)) :
    ∃ early report late, inputs = early ++ .report report :: late ∧
      (after d s early).done = false ∧ report.state = .finished ∧ report.taskId = task ∧
      (after d s early).registry.taskOf? host = some task := by
  induction inputs generalizing s with
  | nil => exact absurd h hbefore
  | cons input rest ih =>
    by_cases hnow : (step d s input).registry.status? host = some (.completed task)
    · cases input with
      | offers batch => exact absurd (completed_of_step_offers hnow) hbefore
      | report report =>
        exact ⟨[], report, rest, rfl, finished_of_step_report hs hbefore hnow⟩
    · obtain ⟨early, report, late, rfl, hlater⟩ := ih (sound_step hs input) hnow h
      exact ⟨input :: early, report, late, rfl, hlater⟩

/-- What is handled up to the end ends with a report. -/
theorem exists_deciding (hopen : s.done = false) {events : List (Nat × Event)}
    (hdone : (after d s (Event.inputs (handled d s events))).done = true) :
    ∃ before arrival report, handled d s events = before ++ [(arrival, .status report)] ∧
      (after d s (Event.inputs before)).done = false := by
  rcases List.eq_nil_or_concat' (handled d s events) with hnil | ⟨before, ⟨arrival, e⟩, heq⟩
  · rw [hnil] at hdone
    cases hopen.symm.trans hdone
  · have hbefore : (after d s (Event.inputs before)).done = false :=
      not_done_of_prefix_handled hopen (heq ▸ List.prefix_append ..) (by simp [heq])
    have hends := ends_eq (d := d) hbefore e
    have hlast : Event.inputs [(arrival, e)] = e.input?.toList :=
      (Event.inputs_cons arrival e []).trans (List.append_nil _)
    rw [heq, Event.inputs_append, after_append, hlast, ← hends] at hdone
    cases e with
    | status report => exact ⟨before, arrival, report, heq, hbefore⟩
    | offers | registered | rescinded | error => cases hdone

theorem launches_append (s : Scheduler) (a b : List Input) :
    launches d s (a ++ b) = launches d s a ++ launches d (after d s a) b := by
  induction a generalizing s with
  | nil => rfl
  | cons input rest ih =>
    cases input with
    | report status => exact ih _
    | offers batch =>
      rw [List.cons_append, launches_cons_offers, launches_cons_offers, ih, List.append_assoc]
      rfl

/-- When a scheduler is done, each admitted host had been launched for before a report came that the
task has finished. -/
theorem exists_finished_of_done (hdone : (after d .initial inputs).done = true)
    (hadmitted : ∃ o ∈ admitted d .initial inputs, o.hostname = host) :
    ∃ l early report late, inputs = early ++ .report report :: late ∧
      (after d .initial early).done = false ∧ report.state = .finished ∧
      report.taskId = l.task.id ∧ l ∈ launches d .initial early ∧ l.task.hostname = host := by
  have hs : Sound d (after d .initial inputs) := sound_after sound_initial inputs
  have hknown := isKnown_after_initial.2 hadmitted
  rw [Registry.isKnown_eq, Option.isSome_iff_exists] at hknown
  obtain ⟨st, hst⟩ := hknown
  have hcompleted := hs.isCompleted_of_done hdone hst
  cases st with
  | seen | serviced | stalled => cases hcompleted
  | completed task =>
    obtain ⟨early, report, late, heq, hopen, hstate, hid, htask⟩ :=
      exists_finished sound_initial nofun hst
    obtain ⟨st, hst, -⟩ := Registry.taskOf?_eq_some.1 htask
    have hknown : (after d .initial early).registry.isKnown host = true := by
      rw [Registry.isKnown_eq, hst]
      rfl
    obtain ⟨first, hfirst, rfl⟩ := exists_find?_admitted (isKnown_after_initial.1 hknown)
    have hl := List.mem_of_mem_filter (filter_launches_initial hfirst ▸ List.mem_singleton_self _)
    have hown := taskOf?_of_mem_launches hl
    exact ⟨_, early, report, late, heq, hopen, hstate,
      hid.trans (Option.some.inj (htask.symm.trans hown)), hl, rfl⟩

theorem handled_eq_self_of_not_done {events : List (Nat × Event)}
    (h : (after d s (Event.inputs events)).done = false) : handled d s events = events := by
  refine handled_eq_self (Bool.eq_false_iff.2 fun hdone => ?_)
  obtain ⟨rest, hrest⟩ := handled_isPrefix (d := d) s events
  rw [← hrest, Event.inputs_append, after_append, after_of_done hdone, hdone] at h
  cases h

end Scheduler

/-- The commands of some turns, in their order. -/
def TimedTurn.given (turns : List TimedTurn) : List Command :=
  turns.flatMap fun t => t.calls.map (·.2)

namespace Run

open Scheduler

variable {σ : Type} {m : Manager σ} {d : Dispatcher} {s : Run σ} {events : List (Nat × Event)}
  {report : Report σ}

theorem given_timedTurns (m : Manager σ) (d : Dispatcher) (closing : Nat) (s : Run σ)
    (events : List (Nat × Event)) :
    TimedTurn.given (timedTurns m d s events) = (follow m d closing s events).trace.given := by
  rw [← Trace.map_calls, calls_follow, List.map_flatMap]
  rfl

theorem launches_timedTurns (h : s.scheduler.done = false) (m : Manager σ)
    (events : List (Nat × Event)) :
    (TimedTurn.given (timedTurns m d s events)).filterMap Command.launch?
      = launches d s.scheduler (Event.inputs (s.scheduler.handled d events)) := by
  rw [given_timedTurns m d 0]
  exact (follows_follow h m 0 events).launched

/-- As long as the scheduler is not done, the turns of later events follow those of the events so
far. -/
theorem timedTurns_append (h : s.scheduler.done = false) {early : List (Nat × Event)}
    (hearly : (after d s.scheduler (Event.inputs early)).done = false) (m : Manager σ)
    (rest : List (Nat × Event)) :
    ∃ s', timedTurns m d s (early ++ rest) = timedTurns m d s early ++ timedTurns m d s' rest := by
  induction early generalizing s with
  | nil => exact ⟨s, rfl⟩
  | cons first early ih =>
    obtain ⟨arrival, e⟩ := first
    rw [Event.inputs_cons, after_append] at hearly
    have hnext : (after d s.scheduler e.input?.toList).done = false := by
      refine Bool.eq_false_iff.2 fun hdone => ?_
      rw [after_of_done hdone, hdone] at hearly
      cases hearly
    obtain ⟨s', t, heq, hgives⟩ := handle_of_not_done h hnext m arrival
    have hscheduler : s'.scheduler = after d s.scheduler e.input?.toList := hgives.scheduler
    obtain ⟨s'', happend⟩ := ih (hscheduler ▸ hnext) (hscheduler ▸ hearly)
    refine ⟨s'', ?_⟩
    rw [List.cons_append, timedTurns, timedTurns, heq]
    exact congrArg (_ :: ·) happend

theorem exists_timedTurns_cons (m : Manager σ) (d : Dispatcher) (s : Run σ) (arrival : Nat)
    (e : Event) (rest : List (Nat × Event)) :
    ∃ t late, timedTurns m d s ((arrival, e) :: rest) = t :: late ∧ t.event = e := by
  rw [timedTurns]
  split
  · exact ⟨_, _, rfl, rfl⟩
  · exact ⟨_, _, rfl, rfl⟩

/-- When a run is done, each host that was offered has one launch, on its first offer, and the turn
of this launch came before the turn of a report that the task has finished. -/
theorem exists_finished_turn (hs : s.scheduler = .initial) (m : Manager σ)
    (hdone : (after d .initial (Event.inputs (handled d .initial events))).done = true)
    {o : Offer} (ho : o ∈ Input.offered (Event.inputs (handled d .initial events))) :
    ∃ first l early t late report,
      (Input.offered (Event.inputs events)).find? (·.hostname == o.hostname) = some first ∧
      ((TimedTurn.given (timedTurns m d s events)).filterMap Command.launch?).filter
        (·.task.hostname == o.hostname) = [l] ∧
      l.offerId = first.id ∧ l.task.agentId = first.agentId ∧
      timedTurns m d s events = early ++ t :: late ∧
      l ∈ (TimedTurn.given early).filterMap Command.launch? ∧
      t.event = .status report ∧ report.state = .finished ∧ report.taskId = l.task.id := by
  have hopen : s.scheduler.done = false := hs ▸ rfl
  obtain ⟨unread, hunread⟩ := handled_isPrefix (d := d) .initial events
  have hadmitted : ∃ a ∈ admitted d .initial (Event.inputs (handled d .initial events)),
      a.hostname = o.hostname := ⟨o, (admitted_handled d events).symm ▸ ho, rfl⟩
  obtain ⟨first, hfirst, -⟩ := exists_find?_admitted hadmitted
  have hone := filter_launches_initial hfirst
  obtain ⟨l, early, report, late, hinputs, hearly, hstate, hid, hl, hhost⟩ :=
    exists_finished_of_done hdone hadmitted
  -- the host has no other launch than its only one
  have hmem : l ∈ (launches d .initial (Event.inputs (handled d .initial events))).filter
      (·.task.hostname == o.hostname) := by
    rw [hinputs, launches_append]
    exact List.mem_filter.2 ⟨List.mem_append_left _ hl, beq_iff_eq.2 hhost⟩
  rw [hone] at hmem
  have hlaunch := List.mem_singleton.1 hmem
  obtain ⟨before, arrival, later, hsplit, rfl⟩ := Event.exists_split_of_inputs hinputs
  have hevents : before ++ (arrival, .status report) :: (later ++ unread) = events := by
    rw [← hunread, hsplit, List.append_assoc, List.cons_append]
  rw [← hs] at hearly hl
  obtain ⟨s', happend⟩ :=
    timedTurns_append hopen hearly m ((arrival, .status report) :: (later ++ unread))
  obtain ⟨t, more, hturn, ht⟩ :=
    exists_timedTurns_cons m d s' arrival (.status report) (later ++ unread)
  rw [hevents, hturn] at happend
  refine ⟨first, l, timedTurns m d s before, t, more, report, ?_, ?_, ?_, ?_, happend, ?_, ht,
    hstate, hid⟩
  · rw [← hunread, Event.inputs_append, Input.offered_append, List.find?_append,
      find?_offered hfirst, Option.some_or]
  · rw [launches_timedTurns hopen, hs, hlaunch]
    exact hone
  · rw [hlaunch]; rfl
  · rw [hlaunch]; rfl
  · rw [launches_timedTurns hopen, handled_eq_self_of_not_done hearly]
    exact hl

end Run

end Rollout
