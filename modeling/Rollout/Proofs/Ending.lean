import Rollout.Proofs.Fate
import Rollout.Proofs.Horizon
import Rollout.Wait

/-!
The end of a run, read off its events.

As long as no batch comes after the end, all offers are admitted. Then the known hosts are the
offered ones, and that all of them are completed says of the events alone that the task of each host
was reported as finished after the first offer of that host. A run ends with the first events of
which this holds, if the clock lets it get so far.
-/
namespace Rollout

namespace Scheduler

variable {d : Dispatcher} {s : Scheduler} {inputs : List Input}

/-- The hosts of some inputs. -/
def hosts (inputs : List Input) : Finset Hostname :=
  ((Input.offered inputs).map (·.hostname)).toFinset

/-- The task of an offered host: its identifier follows those of the hosts offered before. -/
def taskFor (d : Dispatcher) (inputs : List Input) (host : Hostname) : TaskId :=
  d.taskId (hostsBefore host (Input.offered inputs))

/-- Something was offered, and each offered host has a report after its first offer that its task
has finished. -/
def Settled (d : Dispatcher) (inputs : List Input) : Prop :=
  Input.offered inputs ≠ [] ∧ ∀ o ∈ Input.offered inputs,
    ∃ r ∈ Input.reportsSince o.hostname inputs,
      r.taskId = taskFor d inputs o.hostname ∧ r.state = .finished

instance : Decidable (Settled d inputs) := inferInstanceAs (Decidable (_ ∧ _))

/-! ### Settled histories -/

/-- If the end does not come before the last input, all offers are admitted. -/
theorem admitted_eq_offered
    (h : ∀ before, before <+: inputs → before ≠ inputs → (after d s before).done = false) :
    admitted d s inputs = Input.offered inputs := by
  induction inputs generalizing s with
  | nil => rfl
  | cons input rest ih =>
    have hopen : ¬s.done = true :=
      Bool.eq_false_iff.1 (h [] List.nil_prefix (List.cons_ne_nil _ _).symm)
    have hrest : admitted d (step d s input) rest = Input.offered rest :=
      ih fun before hp hne => h (input :: before) ((List.prefix_cons_inj _).2 hp)
        fun heq => hne (List.cons.inj heq).2
    cases input with
    | report status => exact hrest
    | offers batch => rw [admitted, if_neg hopen, hrest, Input.offered_cons_offers]

theorem knownCount_eq_card (h : admitted d .initial inputs = Input.offered inputs) :
    (after d .initial inputs).registry.knownCount = (hosts inputs).card := by
  rw [Registry.knownCount, Table.size_eq_countWhere]
  refine Table.countWhere_eq_card fun host => ?_
  have hknown : (after d .initial inputs).registry.isKnown host = true ↔ _ := isKnown_after_initial
  rw [Registry.isKnown_eq, Option.isSome_iff_exists, h, ← List.mem_map] at hknown
  rw [← hknown]
  exact exists_congr fun _ => and_iff_left rfl

/-- A host is completed when a report after its first offer said that its task has finished. -/
theorem isCompleted_iff_finished {o : Offer} {st : HostStatus}
    (h : admitted d .initial inputs = Input.offered inputs)
    (hd : d.Distinct (after d .initial inputs).roster.drawn) (ho : o ∈ Input.offered inputs)
    (hst : (after d .initial inputs).registry.status? o.hostname = some st) :
    st.isCompleted = true ↔ ∃ r ∈ Input.reportsSince o.hostname inputs,
      r.taskId = taskFor d inputs o.hostname ∧ r.state = .finished := by
  rw [status?_of_admitted hd ⟨o, h ▸ ho, rfl⟩, Option.some.injEq] at hst
  rw [← hst, HostStatus.isCompleted_verdict, TaskStatus.endings, List.mem_map]
  constructor
  · rintro ⟨r, hr, hstate⟩
    obtain ⟨hmem, hboth⟩ := List.mem_filter.1 hr
    exact ⟨r, hmem, beq_iff_eq.1 (Bool.and_eq_true_iff.1 hboth).1, hstate⟩
  · rintro ⟨r, hmem, htask, hstate⟩
    refine ⟨r, List.mem_filter.2 ⟨hmem, Bool.and_eq_true_iff.2 ⟨beq_iff_eq.2 htask, ?_⟩⟩, hstate⟩
    rw [hstate]
    rfl

/-- A scheduler whose offers were all admitted is done when its inputs are settled. -/
theorem done_iff_settled (h : admitted d .initial inputs = Input.offered inputs)
    (hd : d.Distinct (after d .initial inputs).roster.drawn) :
    (after d .initial inputs).done = true ↔ Settled d inputs := by
  have hs : Sound d (after d .initial inputs) := sound_after sound_initial inputs
  rw [hs.latch, completed, hs.coherent.counted, knownCount_eq_card h]
  refine and_congr ?_ ?_
  · rw [Finset.card_pos, hosts, List.toFinset_nonempty_iff, ne_eq, List.map_eq_nil_iff]
  · rw [← knownCount_eq_card h]
    refine Registry.completedCount_eq_knownCount_iff.trans ?_
    constructor
    · intro hall o ho
      have hknown := isKnown_after_initial.2 ⟨o, h.symm ▸ ho, rfl⟩
      rw [Registry.isKnown_eq, Option.isSome_iff_exists] at hknown
      obtain ⟨st, hst⟩ := hknown
      exact (isCompleted_iff_finished h hd ho hst).1 (hall o.hostname st hst)
    · intro hall host st hst
      have hknown : (after d .initial inputs).registry.isKnown host = true := by
        rw [Registry.isKnown_eq, Option.isSome_iff_exists]
        exact ⟨st, hst⟩
      obtain ⟨o, ho, rfl⟩ := isKnown_after_initial.1 hknown
      rw [h] at ho
      exact (isCompleted_iff_finished h hd ho hst).2 (hall o ho)

/-! ### Settled events -/

/-- So many events are the first that settle a run. -/
def SettledFirst (d : Dispatcher) (events : List (Nat × Event)) (n : Nat) : Prop :=
  Settled d (Event.inputs (events.take n)) ∧
    ∀ k < n, ¬Settled d (Event.inputs (events.take k))

instance {events : List (Nat × Event)} {n : Nat} : Decidable (SettledFirst d events n) :=
  inferInstanceAs (Decidable (_ ∧ _))

variable {events before : List (Nat × Event)}

/-- All offers that are handled are admitted. -/
theorem admitted_of_prefix_handled (h : before <+: handled d .initial events) :
    admitted d .initial (Event.inputs before) = Input.offered (Event.inputs before) := by
  refine admitted_eq_offered fun early hearly hne => ?_
  obtain ⟨first, hfirst, rfl⟩ := List.prefix_filterMap_iff.1 hearly
  refine not_done_of_prefix_handled rfl (hfirst.trans h) fun heq => hne ?_
  -- nothing lies between `before` and what is handled
  rw [hfirst.eq_of_length_le (heq ▸ h.length_le)]
  rfl

theorem admitted_handled (d : Dispatcher) (events : List (Nat × Event)) :
    admitted d .initial (Event.inputs (handled d .initial events))
      = Input.offered (Event.inputs (handled d .initial events)) :=
  admitted_of_prefix_handled List.prefix_rfl

theorem distinct_of_prefix_handled (h : before <+: handled d .initial events)
    (hd : d.Distinct (after d .initial (Event.inputs (handled d .initial events))).roster.drawn) :
    d.Distinct (after d .initial (Event.inputs before)).roster.drawn := by
  obtain ⟨more, hmore⟩ := h
  have hmoves := moves_after (d := d) (after d .initial (Event.inputs before)) (Event.inputs more)
  rw [← after_append, Event.inputs, Event.inputs, ← List.filterMap_append, hmore] at hmoves
  exact hd.mono (Roster.drawn_le_of_moves hmoves)

/-- Up to the end, a scheduler is done when its events are settled. -/
theorem done_iff_settled_of_handled (h : before <+: handled d .initial events)
    (hd : d.Distinct (after d .initial (Event.inputs (handled d .initial events))).roster.drawn) :
    (after d .initial (Event.inputs before)).done = true ↔ Settled d (Event.inputs before) :=
  done_iff_settled (admitted_of_prefix_handled h) (distinct_of_prefix_handled h hd)

/-- What is handled are the first events that settle the run, if there are any. -/
theorem handled_of_settledFirst {n : Nat}
    (hd : d.Distinct (after d .initial (Event.inputs (handled d .initial events))).roster.drawn)
    (h : SettledFirst d events n) : handled d .initial events = events.take n ∧
      (after d .initial (Event.inputs (events.take n))).done = true := by
  obtain ⟨hsettled, hmin⟩ := h
  have htake := List.prefix_iff_eq_take.1 (handled_isPrefix (d := d) .initial events)
  have hwhole := done_iff_settled_of_handled List.prefix_rfl hd
  rcases Nat.lt_or_ge n (handled d .initial events).length with hlt | hge
  · -- an end so early would have come before the last event
    have hprefix : events.take n <+: handled d .initial events := by
      rw [htake]
      exact List.take_prefix_take_left hlt.le
    have hne : events.take n ≠ handled d .initial events := by
      intro heq
      have hlen := List.length_take_le n events
      rw [heq] at hlen
      omega
    have hdone := (done_iff_settled_of_handled hprefix hd).2 hsettled
    rw [not_done_of_prefix_handled rfl hprefix hne] at hdone
    cases hdone
  · cases hdone : (after d .initial (Event.inputs (handled d .initial events))).done with
    | true =>
      have hsettles := hwhole.1 hdone
      rw [htake] at hsettles
      have hlen : n = (handled d .initial events).length :=
        Nat.le_antisymm (Nat.le_of_not_lt fun hlt => hmin _ hlt hsettles) hge
      rw [hlen, ← htake]
      exact ⟨rfl, hdone⟩
    | false =>
      -- all events are handled, so that they are the first `n`
      have hall := handled_eq_self hdone
      rw [hall] at hge hwhole ⊢
      rw [List.take_of_length_le hge] at hsettled ⊢
      exact ⟨rfl, hwhole.2 hsettled⟩

/-- Everything is handled if no events settle the run. -/
theorem handled_of_not_settled
    (hd : d.Distinct (after d .initial (Event.inputs (handled d .initial events))).roster.drawn)
    (h : ∀ n, ¬Settled d (Event.inputs (events.take n))) : handled d .initial events = events ∧
      (after d .initial (Event.inputs events)).done = false := by
  have hwhole := done_iff_settled_of_handled List.prefix_rfl hd
  have htake := List.prefix_iff_eq_take.1 (handled_isPrefix (d := d) .initial events)
  have hopen : (after d .initial (Event.inputs (handled d .initial events))).done = false := by
    rw [htake] at hwhole ⊢
    exact Bool.eq_false_iff.2 fun hdone => h _ (hwhole.1 hdone)
  have hall := handled_eq_self hopen
  rw [hall] at hopen
  exact ⟨hall, hopen⟩

end Scheduler

/-! ### The end of a run -/

namespace Run

open Scheduler

variable {σ : Type} {m : Manager σ} {d : Dispatcher} {s : Run σ} {events : List (Nat × Event)}
  {report : Report σ}

/-- The launches of a run are those that the inputs it handled lead to. -/
theorem Follows.launched (h : Follows m d s events report) :
    report.trace.given.filterMap Command.launch?
      = launches d s.scheduler (Event.inputs (s.scheduler.handled d events)) := by
  rw [h.given, List.filterMap_append, filterMap_launch?_replies]
  split
  · exact List.append_nil _
  · exact List.append_nil _

theorem Follows.distinct_handled (h : Follows m d s events report) (hs : s.scheduler = .initial)
    (hd : d.Distinct report.final.scheduler.roster.drawn) :
    d.Distinct (after d .initial (Event.inputs (handled d .initial events))).roster.drawn := by
  rwa [h.scheduler, hs] at hd

/-- A run that is settled by some of its events stops after the first that do. -/
theorem Follows.stops (h : Follows m d s events report) (hs : s.scheduler = .initial)
    (hd : d.Distinct report.final.scheduler.roster.drawn) {n : Nat} (hn : SettledFirst d events n) :
    report.unread = events.drop n ∧
    report.final.scheduler = after d .initial (Event.inputs (events.take n)) ∧
    ∃ log, report.trace.given = log ++ [.stop] ∧ .stop ∉ log ∧
      report.ending = (m.perform .stop (m.after s.manager log)).1.map fun _ =>
        .completed (hosts (Event.inputs (events.take n))).card := by
  obtain ⟨hhandled, hdone⟩ := handled_of_settledFirst (h.distinct_handled hs hd) hn
  have hadmitted := admitted_handled d events
  obtain ⟨hunread, hfinal, hgiven, hending⟩ := h
  rw [hhandled] at hadmitted
  rw [hs, hhandled] at hunread hfinal hgiven hending
  rw [hfinal, if_pos hdone] at hgiven hending
  rw [knownCount_eq_card hadmitted] at hending
  refine ⟨?_, hfinal, _, hgiven, stop_notMem_replies _ _, hending⟩
  exact List.append_cancel_left (hunread.symm.trans (List.take_append_drop n events).symm)

/-- A run that no events settle handles them all and does not stop. -/
theorem Follows.disconnects (h : Follows m d s events report) (hs : s.scheduler = .initial)
    (hd : d.Distinct report.final.scheduler.roster.drawn)
    (hnone : ∀ n, ¬Settled d (Event.inputs (events.take n))) :
    report.unread = [] ∧ report.final.scheduler = after d .initial (Event.inputs events) ∧
    .stop ∉ report.trace.given ∧
    report.ending = .ok (.disconnected report.final.scheduler.progress) := by
  obtain ⟨hhandled, hopen⟩ := handled_of_not_settled (h.distinct_handled hs hd) hnone
  obtain ⟨hunread, hfinal, hgiven, hending⟩ := h
  rw [hs, hhandled] at hunread hfinal hgiven
  have hstill : ¬report.final.scheduler.done = true := by
    rw [hfinal, hopen]
    exact Bool.false_ne_true
  rw [if_neg hstill, List.append_nil] at hgiven
  rw [if_neg hstill] at hending
  exact ⟨List.self_eq_append_right.1 hunread, hfinal, hgiven ▸ stop_notMem_replies _ _, hending⟩

/-- An offered host has one launch, with the task that its report has to name. -/
theorem Follows.launched_for (h : Follows m d s events report) (hs : s.scheduler = .initial)
    {o : Offer} (ho : o ∈ Input.offered (Event.inputs (handled d .initial events))) :
    ∃ l,
      (report.trace.given.filterMap Command.launch?).filter (·.task.hostname == o.hostname) = [l] ∧
      l.task.id = taskFor d (Event.inputs (handled d .initial events)) o.hostname := by
  rw [← admitted_handled] at ho
  obtain ⟨first, hfirst, -⟩ := exists_find?_admitted ⟨o, ho, rfl⟩
  rw [h.launched, hs]
  exact ⟨_, filter_launches_initial hfirst, rfl⟩

/-- Whatever the manager answers and however launches are paced, a run that returns has handled the
first events that settle it and stopped the manager at last, with the number of offered hosts or the
error of the stop as its result; if none settle it, it has handled all events and reports its last
progress, without a stop. Each host offered in what was handled has one launch, with the task that
its report has to name. A run does not return only if it breaks off, without a stop, where the
interval from its last launch ends behind the horizon. -/
theorem ends_when_settled (m : Manager σ) (d : Dispatcher) (interval closing horizon : Nat)
    (manager : σ) (events : List (Nat × Event))
    (distinct : d.Distinct (followUntil m d closing horizon
      (initial interval manager) events).final.scheduler.roster.drawn) :
    let course := followUntil m d closing horizon (initial interval manager) events
    (∀ ending, course.close = some ending →
      (∀ n, SettledFirst d events n →
        course.unread = events.drop n ∧
        course.final.scheduler = after d .initial (Event.inputs (events.take n)) ∧
        ∃ log, course.trace.given = log ++ [.stop] ∧ .stop ∉ log ∧
          ending = match (m.perform .stop (m.after manager log)).1 with
            | .ok () => .ok (.completed (hosts (Event.inputs (events.take n))).card)
            | .error e => .error e) ∧
      ((∀ n, ¬Settled d (Event.inputs (events.take n))) →
        course.unread = [] ∧
        course.final.scheduler = after d .initial (Event.inputs events) ∧
        .stop ∉ course.trace.given ∧
        ending = .ok (.disconnected course.final.scheduler.progress)) ∧
      ∃ handled, events = handled ++ course.unread ∧
        ∀ o ∈ Input.offered (Event.inputs handled), ∃ l,
          (course.trace.given.filterMap Command.launch?).filter (·.task.hostname == o.hostname)
            = [l] ∧
          l.task.id = taskFor d (Event.inputs handled) o.hostname) ∧
    (course.close = none →
      (∃ last ∈ course.final.pacer.last, horizon < last + interval) ∧ .stop ∉ course.trace.given) := by
  intro course
  let start : Run σ := initial interval manager
  have hf : Follows m d start events (follow m d closing start events) :=
    follows_follow rfl m closing events
  refine ⟨fun ending hclose => ?_, fun hclose => ?_⟩
  · obtain ⟨heq, rfl⟩ := followUntil_of_close hclose
    have hcourse : course = _ := heq
    change d.Distinct course.final.scheduler.roster.drawn at distinct
    rw [hcourse] at distinct ⊢
    refine ⟨fun n hn => ?_, hf.disconnects rfl distinct, _, hf.unread, fun o => hf.launched_for rfl⟩
    obtain ⟨hunread, hfinal, log, hgiven, hlast, hending⟩ := hf.stops rfl distinct hn
    refine ⟨hunread, hfinal, log, hgiven, hlast, hending.trans ?_⟩
    change Except.map _ (m.perform .stop (m.after manager log)).1 = _
    cases (m.perform .stop (m.after manager log)).1 <;> rfl
  · exact ⟨(overflow_of_close hclose).2, stop_notMem_of_close rfl hclose⟩

/-- The only host finishes although its launch was answered with an error; the stop fails, and the
last event stays unread. -/
theorem ends_when_settled_failed_stop :
    let events : List (Nat × Event) :=
      [(0, .registered "f"), (1, .offers [Sample.offer "o1" "h1"]),
        (2, .status (.bare (Sample.dispatcher.taskId 0) .finished)), (3, .rescinded "o1")]
    let course := followUntil Manager.scripted Sample.dispatcher 9 Wait.horizon
      (initial 250 [.error (.rejected "busy"), .error .stopped]) events
    SettledFirst Sample.dispatcher events 3 ∧ course.unread = [(3, .rescinded "o1")] ∧
      course.close = some (.error .stopped) := by
  intro events course
  have hn : SettledFirst Sample.dispatcher events 3 := by decide
  have hclose : course.close = some (.error .stopped) := by decide
  obtain ⟨hreturned, -⟩ := ends_when_settled Manager.scripted Sample.dispatcher 250 9 Wait.horizon
    [.error (.rejected "busy"), .error .stopped] events (Sample.distinct_dispatcher _)
  obtain ⟨hstops, -, -⟩ := hreturned _ hclose
  obtain ⟨hunread, -⟩ := hstops 3 hn
  exact ⟨hn, hunread, hclose⟩

/-- The events settle the run, but with an interval that no clock can tell the second host is never
launched for, and there is neither a stop nor a result. -/
theorem settled_run_breaks_off :
    let events : List (Nat × Event) :=
      [(0, .offers [Sample.offer "o1" "h1", Sample.offer "o2" "h2"]),
        (1, .status (.bare (Sample.dispatcher.taskId 0) .finished)),
        (2, .status (.bare (Sample.dispatcher.taskId 1) .finished))]
    let course := followUntil Manager.scripted Sample.dispatcher 9 Wait.horizon
      (initial 18446744073709551615000 []) events
    SettledFirst Sample.dispatcher events 3 ∧ course.close = none ∧
      course.unread = events.drop 1 ∧ .stop ∉ course.trace.given := by
  decide

end Run

end Rollout
