import Rollout.Proofs.Fate

/-!
The phase of a run, and how the hosts stand in it.

Hosts wait for a task only while a batch is being answered. Between two inputs every known host has
one, so that the phase is read off two facts, whether the run is done and whether any host is known,
and neither of them is ever lost again. As long as the run is not done some host is not completed,
and its task is under way or the host is stalled.
-/
namespace Rollout

/-- How far a phase is: a run begins by collecting, then drains, and then is done. -/
def Phase.rank : Phase → Nat
  | .collecting => 0
  | .draining => 1
  | .done => 2

namespace Scheduler

variable {d : Dispatcher} {s : Scheduler}

/-! ### Every known host has a task -/

theorem Sound.isServiced_of_status? (hs : Sound d s) {host : Hostname} {st : HostStatus}
    (h : s.registry.status? host = some st) : st.isServiced = true := by
  have hknown : s.registry.isKnown host = true := by rw [Registry.isKnown_eq, h]; rfl
  have hserved := hs.served host hknown
  rwa [Registry.isServiced, h] at hserved

theorem Sound.exists_taskOf? (hs : Sound d s) {host : Hostname}
    (h : s.registry.isKnown host = true) : ∃ task, s.registry.taskOf? host = some task := by
  have hserved := hs.served host h
  rwa [Registry.isServiced_eq, Option.isSome_iff_exists] at hserved

theorem Sound.unserviced_eq_nil (hs : Sound d s) : s.registry.unserviced = [] := by
  refine Table.keysWhere_eq_nil_iff.2 fun host st h => ?_
  rw [HostStatus.isSeen_eq, hs.isServiced_of_status? h]
  rfl

theorem Sound.servicedCount_eq_knownCount (hs : Sound d s) :
    s.registry.servicedCount = s.registry.knownCount :=
  Table.countWhere_eq_size_iff.2 fun _ _ h => hs.isServiced_of_status? h

/-- As many identifiers are drawn as hosts are known. -/
theorem Sound.knownCount_eq_drawn (hs : Sound d s) : s.registry.knownCount = s.roster.drawn :=
  (hs.coherent.numbered.trans hs.servicedCount_eq_knownCount).symm

/-! ### Phases -/

theorem Sound.phase_eq (hs : Sound d s) : s.phase =
    if s.done then .done else if 0 < s.registry.knownCount then .draining else .collecting := by
  simp only [phase, hs.servicedCount_eq_knownCount, and_true]

theorem Sound.phase_eq_collecting_iff (hs : Sound d s) :
    s.phase = .collecting ↔ s.registry.knownCount = 0 := by
  rw [hs.phase_eq]
  split
  · next hdone =>
    have hpos := (hs.latch.1 hdone).1
    exact iff_of_false Phase.noConfusion (by omega)
  · split
    · exact iff_of_false Phase.noConfusion (by omega)
    · exact iff_of_true rfl (by omega)

/-- A report that ends a run finds hosts known. -/
theorem Sound.knownCount_pos_of_done_step (hs : Sound d s) (hdone : s.done = false) {input : Input}
    (h : (step d s input).done = true) : 0 < s.registry.knownCount := by
  cases input with
  | offers batch =>
    rw [step, handleOffers_of_not_done hdone] at h
    cases h
  | report status =>
    have hnext := sound_step hs (.report status)
    have hpos := (hnext.latch.1 h).1
    rwa [hnext.knownCount_eq_drawn, drawn_step_report, ← hs.knownCount_eq_drawn] at hpos

/-- An input brings a run to its next phase at most, and never back. -/
theorem Sound.rank_phase_step (hs : Sound d s) (input : Input) :
    s.phase.rank ≤ (step d s input).phase.rank ∧
      (step d s input).phase.rank ≤ s.phase.rank + 1 := by
  cases hdone : s.done with
  | true =>
    rw [step_of_done hdone]
    exact ⟨le_rfl, Nat.le_succ _⟩
  | false =>
    have hnext := sound_step hs input
    have hmono : s.registry.knownCount ≤ (step d s input).registry.knownCount :=
      Roster.knownCount_le_of_moves (moves_step s input)
    rw [hs.phase_eq, hnext.phase_eq, hdone]
    cases hend : (step d s input).done with
    | true =>
      have hpos := hs.knownCount_pos_of_done_step hdone hend
      simp [hpos, Phase.rank]
    | false =>
      simp only [Bool.false_eq_true, if_false]
      split <;> split <;> simp only [Phase.rank] <;> omega

theorem Sound.rank_phase_after (hs : Sound d s) (inputs : List Input) :
    s.phase.rank ≤ (after d s inputs).phase.rank := by
  induction inputs generalizing s with
  | nil => exact le_rfl
  | cons input rest ih => exact (hs.rank_phase_step input).1.trans (ih (sound_step hs input))

/-! ### How the hosts stand -/

theorem Sound.pending_eq_nil_of_done (hs : Sound d s) (hdone : s.done = true) :
    s.registry.pending = [] :=
  Table.keysWhere_eq_nil_iff.2 fun _ _ h =>
    HostStatus.isPending_of_isCompleted (hs.isCompleted_of_done hdone h)

/-- A run that is not done has a host that is not completed; if no task is under way, that host is
stalled. -/
theorem Sound.stalled_ne_nil (hs : Sound d s) (hdone : s.done = false)
    (known : 0 < s.registry.knownCount) (h : s.registry.pending = []) :
    s.registry.stalled ≠ [] := by
  intro hnil
  have hcount : s.registry.completedCount = s.registry.knownCount := by
    refine Registry.completedCount_eq_knownCount_iff.2 fun host st hst => ?_
    by_contra hc
    have hp := Table.keysWhere_eq_nil_iff.1 h host st hst
    have hstalled := HostStatus.isSome_stalledIn? (hs.isServiced_of_status? hst) hp hc
    have hmem : host ∈ s.registry.stalled.map (·.1) := by
      rw [Registry.map_fst_stalled]
      exact Table.mem_keysWhere_iff.2 ⟨st, hst, hstalled⟩
    rw [hnil] at hmem
    cases hmem
  have hall := hs.latch.2 ⟨known, hs.coherent.counted.trans hcount⟩
  rw [hdone] at hall
  cases hall

theorem isDone_progress (s : Scheduler) : s.progress.isDone = s.done := by
  rw [Progress.isDone, progress, phase]
  cases s.done with
  | true => rfl
  | false =>
    simp only [Bool.false_eq_true, if_false]
    split <;> rfl

theorem Sound.isBlocked_progress (hs : Sound d s) (known : 0 < s.registry.knownCount) :
    s.progress.isBlocked = (!s.done && s.registry.pending.isEmpty) := by
  rw [Progress.isBlocked, isDone_progress]
  simp only [progress, hs.unserviced_eq_nil]
  cases hdone : s.done with
  | true => rfl
  | false =>
    cases hp : s.registry.pending with
    | cons host rest => rfl
    | nil =>
      have hstalled := hs.stalled_ne_nil hdone known hp
      simp [hstalled]

/-- Of a run with known hosts exactly one of three is true: it is done, a task is under way, or it
is blocked. -/
theorem Sound.count_standing (hs : Sound d s) (known : 0 < s.registry.knownCount) :
    [s.progress.isDone, !s.progress.pending.isEmpty, s.progress.isBlocked].count true = 1 := by
  rw [isDone_progress, hs.isBlocked_progress known]
  simp only [progress]
  cases hdone : s.done with
  | true => rw [hs.pending_eq_nil_of_done hdone]; rfl
  | false => cases s.registry.pending <;> rfl

/-- After every history each known host has a task, so that none waits for one and the hosts with a
task are as many as the known ones; the run collects exactly as long as no host is known; an input
takes it to the next phase at most and nothing ever takes it back; and once there are known hosts,
exactly one of three holds: the run is done, a task is under way, or the run is blocked. -/
theorem phase_advances (d : Dispatcher) (inputs : List Input) :
    let s := after d .initial inputs
    (∀ host, s.registry.isKnown host = true → ∃ task, s.registry.taskOf? host = some task) ∧
    s.registry.unserviced = [] ∧
    s.registry.servicedCount = s.registry.knownCount ∧
    (s.phase = .collecting ↔ s.registry.knownCount = 0) ∧
    (∀ input, (step d s input).phase.rank ≤ s.phase.rank + 1) ∧
    (∀ more, s.phase.rank ≤ (after d s more).phase.rank) ∧
    (0 < s.registry.knownCount →
      [s.progress.isDone, !s.progress.pending.isEmpty, s.progress.isBlocked].count true = 1) := by
  intro s
  have hs : Sound d s := sound_after sound_initial inputs
  exact ⟨fun _ => hs.exists_taskOf?, hs.unserviced_eq_nil, hs.servicedCount_eq_knownCount,
    hs.phase_eq_collecting_iff, fun input => (hs.rank_phase_step input).2, hs.rank_phase_after,
    hs.count_standing⟩

/-- One host is completed and the other one lost: the run drains, and it is blocked. -/
theorem phase_advances_lost :
    let s := after Sample.dispatcher .initial
      [.offers [Sample.offer "o1" "h1", Sample.offer "o2" "h2"], Sample.report 0 .lost,
        Sample.report 1 .finished]
    0 < s.registry.knownCount ∧ s.progress.isBlocked = true ∧
      [s.progress.isDone, !s.progress.pending.isEmpty, s.progress.isBlocked].count true = 1 := by
  intro s
  have hknown : 0 < s.registry.knownCount := by decide
  obtain ⟨-, -, -, -, -, -, hone⟩ := phase_advances Sample.dispatcher
    [.offers [Sample.offer "o1" "h1", Sample.offer "o2" "h2"], Sample.report 0 .lost,
      Sample.report 1 .finished]
  exact ⟨hknown, by decide, hone hknown⟩

end Scheduler

end Rollout
