import Rollout.Proofs.Launching

/-!
The fate of a host.

A host hears only the reports about its own task, and of these only the ones that end it. The first
failure stalls the host, any success completes it, and nothing undoes a success. So the status of a
host is read off the reports that came after its launch, whatever else happened in between.
-/
namespace Rollout

/-- The states in which reports say that a task has ended. -/
def TaskStatus.endings (task : TaskId) (reports : List TaskStatus) : List TaskState :=
  (reports.filter fun r => r.taskId == task && r.state.isTerminal).map (·.state)

namespace HostStatus

/-- The status of a host whose task was launched and has had these endings since. -/
def verdict (task : TaskId) (endings : List TaskState) : HostStatus :=
  if .finished ∈ endings then .completed task
  else
    match endings.find? fun state => !state.isSuccess with
    | some state => .stalled task state
    | none => .serviced task

/-- The status of a host after a report, which counts only if it is about the host's task. -/
def hear (s : HostStatus) (report : TaskStatus) : HostStatus :=
  if s.task? = some report.taskId then s.settle report.state else s

/-! ### Hearing reports -/

theorem isSuccess_iff {state : TaskState} : state.isSuccess = true ↔ state = .finished := by
  cases state <;> decide

theorem task?_hear (s : HostStatus) (report : TaskStatus) : (s.hear report).task? = s.task? := by
  rw [hear]
  split
  · exact task?_settle report.state s
  · rfl

theorem isServiced_hear (s : HostStatus) (report : TaskStatus) :
    (s.hear report).isServiced = s.isServiced := by
  rw [isServiced_eq, isServiced_eq, task?_hear]

/-- A completed host stays completed. -/
theorem hear_of_isCompleted {s : HostStatus} (h : s.isCompleted = true) (report : TaskStatus) :
    s.hear report = s := by
  cases s with
  | completed task =>
    rw [hear]
    split
    · exact settle_completed report.state task
    · rfl
  | seen | serviced | stalled => cases h

/-- Only the endings of a host's own task reach it. -/
theorem foldl_hear {s : HostStatus} {task : TaskId} (h : s.task? = some task)
    (reports : List TaskStatus) : reports.foldl hear s
      = (TaskStatus.endings task reports).foldl (fun s state => s.settle state) s := by
  induction reports generalizing s with
  | nil => rfl
  | cons r rest ih =>
    rw [List.foldl_cons, ih ((task?_hear s r).trans h), TaskStatus.endings, TaskStatus.endings]
    by_cases hown : r.taskId = task
    · have hheard : s.hear r = s.settle r.state := if_pos (hown.symm ▸ h)
      by_cases hend : r.state.isTerminal = true
      · rw [List.filter_cons_of_pos (by simp [hown, hend]), List.map_cons, List.foldl_cons, hheard]
      · have hno : ¬r.state.isSuccess = true := fun hs => hend (by rw [isSuccess_iff.1 hs]; rfl)
        rw [List.filter_cons_of_neg (by simp [hend]), hheard, settle_of_not_isTerminal hno hend]
        rfl
    · have hheard : s.hear r = s := by
        refine if_neg fun heq => hown ?_
        rw [h, Option.some.injEq] at heq
        exact heq.symm
      rw [List.filter_cons_of_neg (by simp [hown]), hheard]

theorem isTerminal_of_mem_endings {task : TaskId} {reports : List TaskStatus} {state : TaskState}
    (h : state ∈ TaskStatus.endings task reports) : state.isTerminal = true := by
  obtain ⟨r, hr, rfl⟩ := List.mem_map.1 h
  exact (Bool.and_eq_true_iff.1 (List.mem_filter.1 hr).2).2

theorem foldl_settle_completed (task : TaskId) (endings : List TaskState) :
    endings.foldl (fun s state => s.settle state) (completed task) = .completed task := by
  induction endings with
  | nil => rfl
  | cons state rest ih => rw [List.foldl_cons, settle_completed, ih]

/-- After a failure only a success counts. -/
theorem foldl_settle_stalled {task : TaskId} {first : TaskState} {endings : List TaskState}
    (h : ∀ state ∈ endings, state.isTerminal = true) :
    endings.foldl (fun s state => s.settle state) (stalled task first)
      = if .finished ∈ endings then .completed task else .stalled task first := by
  induction endings with
  | nil => rfl
  | cons state rest ih =>
    have hrest := ih fun x hx => h x (List.mem_cons_of_mem _ hx)
    rw [List.foldl_cons]
    by_cases hs : state.isSuccess = true
    · have hfin := isSuccess_iff.1 hs
      subst hfin
      rw [settle_of_isSuccess hs, if_pos List.mem_cons_self]
      exact foldl_settle_completed task rest
    · have hne : state ≠ .finished := fun heq => hs (isSuccess_iff.2 heq)
      rw [settle_of_isTerminal hs (h state List.mem_cons_self)]
      refine hrest.trans ?_
      simp [Ne.symm hne]

/-- The endings of a launched task, one after the other, come to the verdict. -/
theorem foldl_settle_serviced {task : TaskId} {endings : List TaskState}
    (h : ∀ state ∈ endings, state.isTerminal = true) :
    endings.foldl (fun s state => s.settle state) (serviced task) = verdict task endings := by
  cases endings with
  | nil => rfl
  | cons state rest =>
    rw [List.foldl_cons, verdict]
    by_cases hs : state.isSuccess = true
    · have hfin := isSuccess_iff.1 hs
      subst hfin
      rw [settle_of_isSuccess hs, if_pos List.mem_cons_self]
      exact foldl_settle_completed task rest
    · have hne : state ≠ .finished := fun heq => hs (isSuccess_iff.2 heq)
      rw [settle_of_isTerminal hs (h state List.mem_cons_self)]
      refine (foldl_settle_stalled fun x hx => h x (List.mem_cons_of_mem _ hx)).trans ?_
      simp [Ne.symm hne, hs]

/-- From its launch on, a host gets the verdict on its task. -/
theorem foldl_hear_serviced (task : TaskId) (reports : List TaskStatus) :
    reports.foldl hear (serviced task) = verdict task (TaskStatus.endings task reports) := by
  rw [foldl_hear rfl, foldl_settle_serviced fun _ h => isTerminal_of_mem_endings h]

theorem isCompleted_verdict {task : TaskId} {endings : List TaskState} :
    (verdict task endings).isCompleted = true ↔ .finished ∈ endings := by
  rw [verdict]
  split
  · next h => exact iff_of_true rfl h
  · next h =>
    refine iff_of_false ?_ h
    split <;> exact Bool.false_ne_true

end HostStatus

namespace Scheduler

variable {d : Dispatcher} {s : Scheduler} {host : Hostname} {st : HostStatus}

/-! ### One host along a history -/

/-- Reports reach their hosts after a step too, if no identifier is drawn twice in what comes. -/
theorem attributed_step (hs : Sound d s) (ha : s.roster.Attributed) {input : Input}
    {rest : List Input} (hd : d.Distinct (after d s (input :: rest)).roster.drawn) :
    (step d s input).roster.Attributed :=
  Roster.attributed_of_moves hs.coherent ha (moves_step s input)
    (hd.mono (Roster.drawn_le_of_moves (moves_after (step d s input) rest)))

/-- Whoever is known when the scheduler is done is completed. -/
theorem Sound.isCompleted_of_done (hs : Sound d s) (hdone : s.done = true)
    (h : s.registry.status? host = some st) : st.isCompleted = true :=
  Registry.completedCount_eq_knownCount_iff.1
    (hs.coherent.counted.symm.trans (hs.latch.1 hdone).2) host st h

/-- A report finds the host that has its task. -/
theorem Sound.hostOf?_iff (hs : Sound d s) (ha : s.roster.Attributed)
    (h : s.registry.status? host = some st) {task : TaskId} :
    s.registry.hostOf? task = some host ↔ st.task? = some task := by
  have htask : s.registry.taskOf? host = st.task? := by rw [Registry.taskOf?, h, Option.bind_some]
  rw [← htask]
  exact ⟨fun hof => hs.coherent.indexed hof, fun hof => ha host task hof⟩

theorem status?_step_report (hs : Sound d s) (ha : s.roster.Attributed)
    (h : s.registry.status? host = some st) (report : TaskStatus) :
    (step d s (.report report)).registry.status? host = some (st.hear report) := by
  cases hdone : s.done with
  | true =>
    -- a report that is not read would change nothing, as all hosts are completed
    rw [step_of_done hdone, HostStatus.hear_of_isCompleted (hs.isCompleted_of_done hdone h), h]
  | false =>
    have hof : s.registry.hostOf? report.taskId = some host ↔ st.task? = some report.taskId :=
      hs.hostOf?_iff ha h
    simp only [registry] at h hof
    rw [step, handleStatus_of_not_done hdone]
    refine (Roster.status?_absorb s.roster report host).trans ?_
    rw [h, Option.map_some, HostStatus.hear]
    split
    · next hhost => rw [if_pos (hof.1 hhost)]
    · next hhost => rw [if_neg fun htask => hhost (hof.2 htask)]

theorem status?_step_offers (h : s.registry.status? host = some st)
    (served : st.isServiced = true) (batch : List Offer) :
    (step d s (.offers batch)).registry.status? host = some st := by
  cases hdone : s.done with
  | true => rwa [step_of_done hdone]
  | false =>
    refine ((answered_step_offers hdone batch).kept host ?_).trans h
    simp only [registry] at h
    rwa [Registry.isServiced, h]

/-- What becomes of a host that has a task is what it hears. -/
theorem status?_after (hs : Sound d s) (ha : s.roster.Attributed)
    (h : s.registry.status? host = some st) (served : st.isServiced = true) (inputs : List Input)
    (hd : d.Distinct (after d s inputs).roster.drawn) :
    (after d s inputs).registry.status? host
      = some ((Input.reports inputs).foldl HostStatus.hear st) := by
  induction inputs generalizing s st with
  | nil => exact h
  | cons input rest ih =>
    have hstep := sound_step hs input
    have hastep : (step d s input).roster.Attributed := attributed_step hs ha hd
    cases input with
    | offers batch => exact ih hstep hastep (status?_step_offers h served batch) served hd
    | report report =>
      exact ih hstep hastep (status?_step_report hs ha h report)
        ((HostStatus.isServiced_hear st report).trans served) hd

/-- A host without a task gets the verdict on the task that is launched for it, by the reports after
its first offer. -/
theorem status?_after_launch (hs : Sound d s) (ha : s.roster.Attributed) {inputs : List Input}
    {l : Launch} (hl : l ∈ launches d s inputs)
    (hd : d.Distinct (after d s inputs).roster.drawn) :
    (after d s inputs).registry.status? l.task.hostname = some (.verdict l.task.id
      (TaskStatus.endings l.task.id (Input.reportsSince l.task.hostname inputs))) := by
  induction inputs generalizing s with
  | nil => cases hl
  | cons input rest ih =>
    have hstep := sound_step hs input
    have hastep : (step d s input).roster.Attributed := attributed_step hs ha hd
    cases input with
    | report report =>
      rw [Input.reportsSince_cons_of_not_offersHost rfl]
      exact ih hstep hastep hl hd
    | offers batch =>
      cases hdone : s.done with
      | true =>
        rw [launches_of_done hdone] at hl
        cases hl
      | false =>
        have hanswered := answered_step_offers (d := d) hdone batch
        rw [launches_cons_offers] at hl
        rcases List.mem_append.1 hl with hnow | hlater
        · -- launched for in this batch, which therefore has its first offer
          rw [handleOffers_of_not_done hdone, Roster.dispatch_snd] at hnow
          obtain ⟨o, ho, hhost⟩ := Dispatcher.hostname_of_mem_launches hnow
          obtain ⟨-, first, hmem, hfirst⟩ := Offer.mem_fresh_hosts.1 ⟨o, ho, hhost⟩
          have hoffers : (Input.offers batch).offersHost l.task.hostname = true :=
            List.any_eq_true.2 ⟨first, hmem, beq_iff_eq.2 hfirst⟩
          rw [Input.reportsSince_cons_of_offersHost hoffers, ← HostStatus.foldl_hear_serviced]
          exact status?_after hstep hastep (hanswered.launched l hnow) rfl rest hd
        · -- launched for later, so this batch has no offer of the host
          have hstill := (mem_launches hlater).1
          rw [registry, hanswered.served, Offer.serve, Bool.or_eq_false_iff] at hstill
          have hnone : (Input.offers batch).offersHost l.task.hostname = false := hstill.2
          rw [Input.reportsSince_cons_of_not_offersHost hnone]
          exact ih hstep hastep hlater hd

/-- An admitted host gets the verdict on the task with the identifier that follows those of the
hosts offered before it. -/
theorem status?_of_admitted {inputs : List Input}
    (hd : d.Distinct (after d .initial inputs).roster.drawn)
    (h : ∃ o ∈ admitted d .initial inputs, o.hostname = host) :
    (after d .initial inputs).registry.status? host
      = some (.verdict (d.taskId (hostsBefore host (Input.offered inputs)))
          (TaskStatus.endings (d.taskId (hostsBefore host (Input.offered inputs)))
            (Input.reportsSince host inputs))) := by
  obtain ⟨o, ho, rfl⟩ := exists_find?_admitted h
  have hmem := List.mem_of_mem_filter (filter_launches_initial ho ▸ List.mem_singleton_self _)
  exact status?_after_launch sound_initial Roster.attributed_empty hmem hd

/-- After every history each known host has one launch, by its first offer, and its status is the
verdict on that task: completed if a report after the launch says that the task finished, else
stalled in the state of the first other report that ended it, else serviced. -/
theorem status_eq_verdict (d : Dispatcher) (inputs : List Input)
    (distinct : d.Distinct (after d .initial inputs).roster.drawn) (host : Hostname)
    (known : (after d .initial inputs).registry.isKnown host = true) :
    ∃ o l, (Input.offered inputs).find? (·.hostname == host) = some o ∧
      (launches d .initial inputs).filter (·.task.hostname == host) = [l] ∧ l.offerId = o.id ∧
      (after d .initial inputs).registry.status? host = some (.verdict l.task.id
        (TaskStatus.endings l.task.id (Input.reportsSince host inputs))) := by
  have hadmitted := isKnown_after_initial.1 known
  obtain ⟨o, ho, -⟩ := exists_find?_admitted hadmitted
  exact ⟨o, _, find?_offered ho, filter_launches_initial ho, rfl,
    status?_of_admitted distinct hadmitted⟩

/-- A failure after a loss, a report on no task, and what other hosts report leave a host stalled in
the state in which it was lost. -/
theorem status_eq_verdict_lost :
    let inputs : List Input :=
      [.offers [Sample.offer "o1" "h1", Sample.offer "o2" "h2"], Sample.report 1 .finished,
        Sample.report 0 .running, Sample.report 7 .finished, Sample.report 0 .lost,
        .offers [Sample.offer "o3" "h1"], Sample.report 1 .failed, Sample.report 0 .failed]
    (after Sample.dispatcher .initial inputs).registry.status? "h1"
      = some (.stalled (Sample.dispatcher.taskId 0) .lost) := by
  intro inputs
  obtain ⟨o, l, -, hone, -, hstatus⟩ := status_eq_verdict Sample.dispatcher inputs
    (Sample.distinct_dispatcher _) "h1" (by decide)
  have hids : ((launches Sample.dispatcher .initial inputs).filter
      (·.task.hostname == "h1")).map (·.task.id) = [Sample.dispatcher.taskId 0] := by decide
  rw [hone] at hids
  have hid : l.task.id = Sample.dispatcher.taskId 0 := List.singleton_inj.1 hids
  rw [hstatus, hid]
  decide

end Scheduler

end Rollout
