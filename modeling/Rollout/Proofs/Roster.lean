import Rollout.Completion
import Rollout.Dispatch
import Rollout.Proofs.Changes

/-!
How a roster changes.

Whatever happens to a roster is a sequence of moves, of which there are four: a new host is
observed, a task is launched for an observed host, a host is completed, a host is stalled. What
holds of every move holds of every run, so the facts about runs start here: the count of completions
is the number of completed hosts, as many identifiers are drawn as hosts are served, and the index
of tasks leads to hosts that have those tasks.
-/
namespace Rollout

/-- The first `n` identifiers of tasks are pairwise different. -/
def Dispatcher.Distinct (d : Dispatcher) (n : Nat) : Prop :=
  ∀ i < n, ∀ j < n, d.taskId i = d.taskId j → i = j

theorem Dispatcher.Distinct.mono {d : Dispatcher} {m n : Nat} (h : d.Distinct n) (hle : m ≤ n) :
    d.Distinct m := fun i hi j hj heq => h i (hi.trans_le hle) j (hj.trans_le hle) heq

namespace Roster

/-- The roster with a launch entered. -/
def enter (r : Roster) (l : Launch) : Roster :=
  { r with
    registry := (r.registry.markServiced l.task.hostname l.task.id).1
    drawn := r.drawn + 1 }

/-- One change of a roster. -/
inductive Move (d : Dispatcher) (r : Roster) : Roster → Prop where
  /-- A host becomes known. -/
  | observe {host : Hostname} (new : r.registry.status? host = none) :
      Move d r { r with registry := r.registry.setStatus host .seen }
  /-- The next task is launched for a host that waits for one. -/
  | enter {l : Launch} (seen : r.registry.status? l.task.hostname = some .seen)
      (next : l.task.id = d.taskId r.drawn) : Move d r (r.enter l)
  /-- A host that has a task succeeds for the first time. -/
  | complete {host : Hostname} {s : HostStatus} {task : TaskId}
      (status : r.registry.status? host = some s) (has : s.task? = some task)
      (first : s.isCompleted = false) :
      Move d r { r with
        registry := r.registry.setStatus host (.completed task), completed := r.completed + 1 }
  /-- A host whose task is under way fails. -/
  | stall {host : Hostname} {task : TaskId} {state : TaskState}
      (status : r.registry.status? host = some (.serviced task)) :
      Move d r { r with registry := r.registry.setStatus host (.stalled task state) }

/-- Some moves, one after the other. -/
abbrev Moves (d : Dispatcher) : Roster → Roster → Prop := Relation.ReflTransGen (Move d)

variable {d : Dispatcher} {r r' : Roster}

/-! ### What moves keep -/

theorem drawn_le_of_move (h : Move d r r') : r.drawn ≤ r'.drawn := by
  cases h with
  | observe | complete | stall => exact le_rfl
  | enter => exact Nat.le_succ _

/-- A move changes the registry once. -/
theorem change_of_move (h : Move d r r') : r.registry.Change r'.registry := by
  cases h with
  | observe new => exact .observe new
  | @enter l seen next => exact .serve seen l.task.id
  | complete status has first => exact .complete status has first
  | @stall host task state status => exact .stall status state

/-- Identifiers are drawn and never given back. -/
theorem drawn_le_of_moves (h : Moves d r r') : r.drawn ≤ r'.drawn := by
  induction h with
  | refl => exact le_rfl
  | tail _ hmove ih => exact ih.trans (drawn_le_of_move hmove)

theorem changes_of_moves (h : Moves d r r') : r.registry.Changes r'.registry :=
  Relation.ReflTransGen.lift (p := Registry.Change) registry (fun _ _ => change_of_move) _ _ h

theorem countWhere_le_of_moves {p : HostStatus → Bool} (hp : HostStatus.Lasting p)
    (h : Moves d r r') : r.registry.hosts.countWhere p ≤ r'.registry.hosts.countWhere p :=
  Registry.countWhere_le_of_changes hp (changes_of_moves h)

theorem knownCount_le_of_moves (h : Moves d r r') :
    r.registry.knownCount ≤ r'.registry.knownCount := by
  rw [Registry.knownCount, Registry.knownCount, Table.size_eq_countWhere,
    Table.size_eq_countWhere]
  exact countWhere_le_of_moves HostStatus.lasting_true h

/-- No task is ever taken from its host. -/
theorem taskOf?_of_moves (h : Moves d r r') {host : Hostname} {task : TaskId}
    (ht : r.registry.taskOf? host = some task) : r'.registry.taskOf? host = some task :=
  Registry.taskOf?_of_changes (changes_of_moves h) ht

/-! ### What holds of every roster -/

/-- The parts of a roster fit together. -/
structure Coherent (d : Dispatcher) (r : Roster) : Prop where
  counted : r.completed = r.registry.completedCount
  numbered : r.drawn = r.registry.servicedCount
  indexed : ∀ {task host}, r.registry.hostOf? task = some host →
    r.registry.taskOf? host = some task
  named : ∀ {host task}, r.registry.taskOf? host = some task → ∃ i < r.drawn, d.taskId i = task

theorem coherent_empty : Coherent d .empty where
  counted := rfl
  numbered := rfl
  indexed h := by cases h
  named h := by cases h

/-- The count of completions rises with the number of completed hosts. -/
theorem completed_of_move (h : Move d r r') :
    r'.completed + r.registry.completedCount = r.completed + r'.registry.completedCount := by
  cases h with
  | observe new =>
    have := Table.countWhere_insert_of_none new .seen HostStatus.isCompleted
    exact congrArg (r.completed + ·) this.symm
  | @enter l seen next =>
    have := Table.countWhere_insert_of_some seen (.serviced l.task.id) HostStatus.isCompleted
    rw [enter, Registry.markServiced_of_seen seen]
    exact congrArg (r.completed + ·) this.symm
  | @complete host s task status has first =>
    have := Table.countWhere_insert_of_some status (.completed task) HostStatus.isCompleted
    rw [first] at this
    exact (Nat.add_right_comm ..).trans (congrArg (r.completed + ·) this.symm)
  | @stall host task state status =>
    have := Table.countWhere_insert_of_some status (.stalled task state) HostStatus.isCompleted
    exact congrArg (r.completed + ·) this.symm

theorem counted_of_move (hc : r.completed = r.registry.completedCount) (h : Move d r r') :
    r'.completed = r'.registry.completedCount := by
  have := completed_of_move h
  omega

theorem numbered_of_move (hn : r.drawn = r.registry.servicedCount) (h : Move d r r') :
    r'.drawn = r'.registry.servicedCount := by
  cases h with
  | observe new =>
    exact hn.trans (Table.countWhere_insert_of_none new .seen HostStatus.isServiced).symm
  | enter seen next =>
    rw [enter, Registry.markServiced_of_seen seen]
    exact (congrArg (· + 1) hn).trans
      (Table.countWhere_insert_of_some seen (.serviced _) HostStatus.isServiced).symm
  | @complete host s task status has first =>
    have := Table.countWhere_insert_of_some status (.completed task) HostStatus.isServiced
    rw [HostStatus.isServiced_eq, has] at this
    exact hn.trans (Nat.add_right_cancel this).symm
  | @stall host task state status =>
    have := Table.countWhere_insert_of_some status (.stalled task state) HostStatus.isServiced
    exact hn.trans (Nat.add_right_cancel this).symm

/-- A host has the task that it had before, or the one that has just been launched. -/
theorem taskOf?_after_move (h : Move d r r') {host : Hostname} {task : TaskId}
    (ht : r'.registry.taskOf? host = some task) : r.registry.taskOf? host = some task ∨
      r'.drawn = r.drawn + 1 ∧ task = d.taskId r.drawn ∧ r'.registry.hostOf? task = some host := by
  cases h with
  | observe new =>
    rw [Registry.taskOf?_setStatus] at ht
    split at ht
    · cases ht
    · exact .inl ht
  | @enter l seen next =>
    rw [enter, Registry.taskOf?_markServiced seen] at ht
    split at ht
    · next heq =>
      cases ht
      refine .inr ⟨rfl, next, ?_⟩
      rw [enter, Registry.hostOf?_markServiced seen, if_pos rfl, heq]
    · exact .inl ht
  | complete status has first =>
    rw [Registry.taskOf?_setStatus] at ht
    split at ht
    · next heq =>
      subst heq
      cases ht
      exact .inl (Registry.taskOf?_eq_some.2 ⟨_, status, has⟩)
    · exact .inl ht
  | stall status =>
    rw [Registry.taskOf?_setStatus] at ht
    split at ht
    · next heq =>
      subst heq
      cases ht
      exact .inl (Registry.taskOf?_eq_some.2 ⟨_, status, rfl⟩)
    · exact .inl ht

theorem coherent_of_move (hr : Coherent d r) (h : Move d r r') : Coherent d r' where
  counted := counted_of_move hr.counted h
  numbered := numbered_of_move hr.numbered h
  indexed := Registry.indexed_of_change hr.indexed (change_of_move h)
  named ht := by
    rcases taskOf?_after_move h ht with hold | ⟨hdrawn, rfl, -⟩
    · obtain ⟨i, hi, hid⟩ := hr.named hold
      exact ⟨i, hi.trans_le (drawn_le_of_move h), hid⟩
    · exact ⟨r.drawn, hdrawn ▸ Nat.lt_succ_self _, rfl⟩

theorem coherent_of_moves (hr : Coherent d r) (h : Moves d r r') : Coherent d r' := by
  induction h with
  | refl => exact hr
  | tail _ hmove ih => exact coherent_of_move ih hmove

/-! ### Attribution -/

/-- Every task that a host has leads back to that host. -/
def Attributed (r : Roster) : Prop :=
  ∀ host task, r.registry.taskOf? host = some task → r.registry.hostOf? task = some host

theorem attributed_empty : Attributed .empty := fun _ _ h => by cases h

theorem attributed_of_move (hr : Coherent d r) (ha : Attributed r) (h : Move d r r')
    (hd : d.Distinct r'.drawn) : Attributed r' := by
  intro host task ht
  rcases taskOf?_after_move h ht with hold | ⟨-, -, hnew⟩
  · have hof := ha host task hold
    cases h with
    | observe | complete | stall => exact hof
    | @enter l seen next =>
      -- a task that a host has already was drawn before, so it is not the one launched now
      obtain ⟨i, hi, hid⟩ := hr.named hold
      have hne : task ≠ l.task.id := by
        rintro rfl
        exact hi.ne (hd i (Nat.lt_succ_of_lt hi) r.drawn (Nat.lt_succ_self _) (hid.trans next))
      rwa [enter, Registry.hostOf?_markServiced seen, if_neg hne]
  · exact hnew

theorem attributed_of_moves (hr : Coherent d r) (ha : Attributed r) (h : Moves d r r')
    (hd : d.Distinct r'.drawn) : Attributed r' := by
  induction h with
  | refl => exact ha
  | tail hmoves hmove ih =>
    exact attributed_of_move (coherent_of_moves hr hmoves)
      (ih (hd.mono (drawn_le_of_move hmove))) hmove hd

end Roster

end Rollout
