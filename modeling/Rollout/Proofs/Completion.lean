import Rollout.Proofs.Roster

/-!
What a report does to a roster.

A report reaches at most one host, the one that its task was launched for, and settles the status of
that host by its state. The decision that follows says whether every known host has completed.
-/
namespace Rollout.Roster

variable (d : Dispatcher) (r : Roster) (report : TaskStatus)

theorem registry_absorb : (r.absorb report).1.registry =
    match r.registry.hostOf? report.taskId with
    | none => r.registry
    | some host =>
      if report.state.isSuccess then (r.registry.markCompleted host).1
      else if report.state.isTerminal then (r.registry.markStalled host report.state).1
      else r.registry := by
  rw [absorb]
  cases r.registry.hostOf? report.taskId with
  | none => rfl
  | some host =>
    dsimp only
    split
    · rcases Registry.markCompleted_cases r.registry host with h | ⟨s, task, -, -, -, h⟩ <;> rw [h]
    · split <;> rfl

/-- A report settles the status of the host of its task, and of no other host. -/
theorem status?_absorb (host : Hostname) : (r.absorb report).1.registry.status? host =
    if r.registry.hostOf? report.taskId = some host
    then (r.registry.status? host).map (.settle report.state) else r.registry.status? host := by
  rw [registry_absorb]
  cases hof : r.registry.hostOf? report.taskId with
  | none => rfl
  | some target =>
    dsimp only
    by_cases heq : target = host
    · subst heq
      rw [if_pos rfl]
      split
      · next hs =>
        rw [Registry.status?_markCompleted, if_pos rfl, HostStatus.settle_of_isSuccess hs]
      · next hs =>
        split
        · next ht =>
          rw [Registry.status?_markStalled, if_pos rfl, HostStatus.settle_of_isTerminal hs ht]
        · next ht =>
          rw [HostStatus.settle_of_not_isTerminal hs ht, Option.map_id_apply]
    · have hne : ¬host = target := fun h => heq h.symm
      rw [if_neg (fun h => heq (Option.some.inj h))]
      split
      · rw [Registry.status?_markCompleted, if_neg hne]
      · split
        · rw [Registry.status?_markStalled, if_neg hne]
        · rfl

/-- No report gives a host a task or takes it away. -/
theorem taskOf?_absorb (host : Hostname) :
    (r.absorb report).1.registry.taskOf? host = r.registry.taskOf? host := by
  rw [Registry.taskOf?, Registry.taskOf?, status?_absorb]
  split
  · cases r.registry.status? host with
    | none => rfl
    | some s => exact HostStatus.task?_settle report.state s
  · rfl

theorem isServiced_absorb : (r.absorb report).1.registry.isServiced = r.registry.isServiced := by
  funext host
  rw [Registry.isServiced_eq, Registry.isServiced_eq, taskOf?_absorb]

theorem isKnown_absorb (host : Hostname) :
    (r.absorb report).1.registry.isKnown host = r.registry.isKnown host := by
  rw [Registry.isKnown_eq, Registry.isKnown_eq, status?_absorb]
  split
  · exact Option.isSome_map
  · rfl

/-- The index of tasks is left as it is. -/
theorem tasks_absorb : (r.absorb report).1.registry.tasks = r.registry.tasks := by
  rw [registry_absorb]
  cases r.registry.hostOf? report.taskId with
  | none => rfl
  | some host =>
    dsimp only
    split
    · rcases r.registry.markCompleted_cases host with h | ⟨s, task, -, -, -, h⟩ <;> rw [h]; rfl
    · split
      · rcases r.registry.markStalled_cases host report.state with h | ⟨task, -, h⟩ <;> rw [h]; rfl
      · rfl

theorem drawn_absorb : (r.absorb report).1.drawn = r.drawn := by
  rw [absorb]
  split
  · rfl
  · split
    · split <;> rfl
    · split <;> rfl

/-- A report is at most one move. -/
theorem moves_absorb : Moves d r (r.absorb report).1 := by
  rw [absorb]
  cases r.registry.hostOf? report.taskId with
  | none => exact .refl
  | some host =>
    dsimp only
    split
    · rcases Registry.markCompleted_cases r.registry host with h | ⟨s, task, hs, ht, hf, h⟩ <;>
        rw [h]
      exact .single (.complete hs ht hf)
    · split
      · rcases Registry.markStalled_cases r.registry host report.state with h | ⟨task, hs, h⟩ <;>
          rw [h]
        exact .single (.stall hs)
      · exact .refl

/-! ### The decision -/

theorem evaluate_eq_terminate_iff : r.evaluate = .terminate ↔
    0 < r.registry.knownCount ∧ r.completed = r.registry.knownCount := by
  rw [evaluate]
  split
  · next h => exact iff_of_true rfl h
  · next h => exact iff_of_false (by decide) h

end Rollout.Roster
