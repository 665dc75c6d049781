import Rollout.Proofs.History

/-!
The end of a scheduler's work.

The counter and the latch are kept in different places from the statuses that they stand for. They
agree all the same: the scheduler is done at the very input after which all known hosts are
completed, and from there on nothing changes any more.
-/
namespace Rollout.Scheduler

variable {d : Dispatcher} {s : Scheduler}

theorem declined_of_done (h : s.done = true) (inputs : List Input) :
    (dispatches d s inputs).map (·.declined)
      = (Input.batches inputs).map fun batch => batch.map (·.id) := by
  rw [dispatches_of_done h, List.map_map]
  rfl

/-- After every history the counter is the number of completed hosts, the scheduler is done exactly
when there are known hosts and all are counted, a report is answered by an end exactly when the
scheduler is done after it, and what is done is left as it is by whatever comes. -/
theorem done_iff_all_completed (d : Dispatcher) (inputs : List Input) :
    let s := after d .initial inputs
    s.completed = s.registry.completedCount ∧
    s.completed ≤ s.registry.knownCount ∧
    (s.done = true ↔ 1 ≤ s.registry.knownCount ∧ s.completed = s.registry.knownCount) ∧
    (∀ status, (s.handleStatus status).2.1 = .terminate ↔ (s.handleStatus status).1.done = true) ∧
    (s.done = true → ∀ more : List Input,
      after d s more = s ∧ (after d s more).phase = s.phase ∧ launches d s more = [] ∧
      (dispatches d s more).map (·.declined)
        = (Input.batches more).map fun batch => batch.map (·.id)) := by
  intro s
  have hs : Sound d s := sound_after sound_initial inputs
  refine ⟨hs.coherent.counted, hs.completed_le_knownCount, hs.latch,
    handleStatus_eq_terminate_iff s, fun hdone more => ?_⟩
  have hafter : after d s more = s := after_of_done hdone more
  exact ⟨hafter, congrArg phase hafter, launches_of_done hdone more, declined_of_done hdone more⟩

/-- Two hosts complete, one of them after a loss and a late third one; later offers are declined. -/
theorem done_iff_all_completed_late_host :
    let inputs : List Input :=
      [.offers [Sample.offer "o1" "h1", Sample.offer "o2" "h2"], Sample.report 0 .finished,
        Sample.report 1 .lost, .offers [Sample.offer "o3" "h3", Sample.offer "o4" "h1"],
        Sample.report 2 .finished, Sample.report 1 .finished]
    let s := after Sample.dispatcher .initial inputs
    let more : List Input := [.offers [Sample.offer "o5" "h4", Sample.offer "o6" "h1"]]
    s.done = true ∧ after Sample.dispatcher s more = s ∧
      (dispatches Sample.dispatcher s more).map (·.declined) = [["o5", "o6"]] := by
  intro inputs s more
  have hdone : s.done = true := by decide
  obtain ⟨-, -, -, -, hlater⟩ := done_iff_all_completed Sample.dispatcher inputs
  obtain ⟨hafter, -, -, hdeclined⟩ := hlater hdone more
  exact ⟨hdone, hafter, hdeclined⟩

end Rollout.Scheduler
