import Rollout.Registry
import Rollout.Proofs.Table

/-!
What the operations on a registry do to the status of each host.

An operation touches the status of the host it names and of no other host. What it makes of that
status is a function of the status alone, so a registry is known from its look-ups.
-/
namespace Rollout

/-! ### What a report makes of a status -/

namespace HostStatus

/-- The status after a success of the host's task. -/
def complete : HostStatus → HostStatus
  | .serviced task => .completed task
  | .stalled task _ => .completed task
  | s => s

/-- The status after the host's task ended without success. -/
def stall (state : TaskState) : HostStatus → HostStatus
  | .serviced task => .stalled task state
  | s => s

/-- The status after a report of some state about the host's task. -/
def settle (state : TaskState) (s : HostStatus) : HostStatus :=
  if state.isSuccess then s.complete else if state.isTerminal then s.stall state else s

theorem settle_of_isSuccess {state : TaskState} (h : state.isSuccess = true) :
    settle state = complete := funext fun _ => if_pos h

theorem settle_of_isTerminal {state : TaskState} (h : ¬state.isSuccess = true)
    (ht : state.isTerminal = true) : settle state = stall state :=
  funext fun _ => (if_neg h).trans (if_pos ht)

/-- A state that ends no task settles nothing. -/
theorem settle_of_not_isTerminal {state : TaskState} (h : ¬state.isSuccess = true)
    (ht : ¬state.isTerminal = true) : settle state = id :=
  funext fun _ => (if_neg h).trans (if_neg ht)

theorem task?_complete (s : HostStatus) : s.complete.task? = s.task? := by cases s <;> rfl

theorem task?_stall (state : TaskState) (s : HostStatus) : (s.stall state).task? = s.task? := by
  cases s <;> rfl

theorem task?_settle (state : TaskState) (s : HostStatus) : (s.settle state).task? = s.task? := by
  rw [settle]
  split
  · exact task?_complete s
  · split
    · exact task?_stall state s
    · rfl

theorem settle_completed (state : TaskState) (task : TaskId) :
    (completed task).settle state = .completed task := by
  rw [settle]
  split
  · rfl
  · split <;> rfl

/-- A host is served exactly when it has a task. -/
theorem isServiced_eq (s : HostStatus) : s.isServiced = s.task?.isSome := by cases s <;> rfl

theorem isSeen_eq (s : HostStatus) : s.isSeen = !s.isServiced := by cases s <;> rfl

theorem isServiced_of_isCompleted {s : HostStatus} (h : s.isCompleted = true) :
    s.isServiced = true := by
  cases s with
  | completed task => rfl
  | seen | serviced | stalled => cases h

theorem isPending_of_isCompleted {s : HostStatus} (h : s.isCompleted = true) :
    s.isPending = false := by
  cases s with
  | completed task => rfl
  | seen | serviced | stalled => cases h

/-- A host whose task is neither under way nor a success is stalled. -/
theorem isSome_stalledIn? {s : HostStatus} (served : s.isServiced = true)
    (hp : s.isPending = false) (hc : ¬s.isCompleted = true) : s.stalledIn?.isSome = true := by
  cases s with
  | stalled task state => rfl
  | seen => cases served
  | serviced task => cases hp
  | completed task => exact absurd rfl hc

/-- The host's task has ended, with success or without. -/
def isEnded : HostStatus → Bool
  | .completed _ | .stalled .. => true
  | .seen | .serviced _ => false

/-- How far a host is. -/
def rank : HostStatus → Nat
  | .seen => 0
  | .serviced _ => 1
  | .stalled .. => 2
  | .completed _ => 3

/-- What once holds of a host holds of it for good. -/
structure Lasting (p : HostStatus → Bool) : Prop where
  launch : ∀ task, p .seen = true → p (.serviced task) = true
  stall : ∀ task state, p (.serviced task) = true → p (.stalled task state) = true
  recover : ∀ task state, p (.stalled task state) = true → p (.completed task) = true

/-- Whatever its status, a host has one for good. -/
theorem lasting_true : Lasting fun _ => true where
  launch _ := id
  stall _ _ := id
  recover _ _ := id

theorem lasting_isServiced : Lasting isServiced where
  launch _ _ := rfl
  stall _ _ _ := rfl
  recover _ _ _ := rfl

theorem lasting_isEnded : Lasting isEnded where
  launch _ h := by cases h
  stall _ _ _ := rfl
  recover _ _ _ := rfl

theorem lasting_isCompleted : Lasting isCompleted where
  launch _ h := by cases h
  stall _ _ h := by cases h
  recover _ _ _ := rfl

/-- A host keeps its task for good. -/
theorem lasting_task (task : TaskId) : Lasting fun s => decide (s.task? = some task) where
  launch _ h := by cases of_decide_eq_true h
  stall _ _ := id
  recover _ _ := id

/-- A host never falls back behind a rank that it has reached. -/
theorem lasting_rank (n : Nat) : Lasting fun s => decide (n ≤ s.rank) where
  launch _ h := decide_eq_true (Nat.le_succ_of_le (of_decide_eq_true h))
  stall _ _ h := decide_eq_true (Nat.le_succ_of_le (of_decide_eq_true h))
  recover _ _ h := decide_eq_true (Nat.le_succ_of_le (of_decide_eq_true h))

theorem Lasting.complete {p : HostStatus → Bool} (h : Lasting p) {s : HostStatus} {task : TaskId}
    (ht : s.task? = some task) (hs : p s = true) : p (.completed task) = true := by
  cases s with
  | seen => cases ht
  | completed => cases ht; exact hs
  | stalled _ state => cases ht; exact h.recover task state hs
  | serviced _ =>
    cases ht
    -- any state of a stall will do on the way
    exact h.recover task .lost (h.stall task .lost hs)

end HostStatus

namespace Registry

variable (r : Registry) (host other : Hostname)

/-- The task launched for a host, if there is one. -/
def taskOf? : Option TaskId := (r.status? host).bind HostStatus.task?

theorem taskOf?_eq_some {r : Registry} {host : Hostname} {task : TaskId} :
    r.taskOf? host = some task ↔ ∃ s, r.status? host = some s ∧ s.task? = some task :=
  Option.bind_eq_some_iff

theorem isServiced_eq : r.isServiced host = (r.taskOf? host).isSome := by
  rw [isServiced, taskOf?]
  cases r.status? host with
  | none => rfl
  | some s => exact s.isServiced_eq

theorem isKnown_eq : r.isKnown host = (r.status? host).isSome := rfl

/-! ### Changing one status -/

theorem status?_setStatus (s : HostStatus) :
    (r.setStatus host s).status? other = if other = host then some s else r.status? other :=
  Table.get?_insert r.hosts host other s

theorem taskOf?_setStatus (s : HostStatus) :
    (r.setStatus host s).taskOf? other = if other = host then s.task? else r.taskOf? other := by
  rw [taskOf?, status?_setStatus]
  split <;> rfl

/-! ### Operations -/

theorem status?_observe : (r.observe host).1.status? other
    = (r.status? other).or (if other = host then some .seen else none) := by
  rw [observe, isKnown_eq]
  cases h : r.status? host with
  | none =>
    simp only [Option.isSome_none, Bool.false_eq_true, if_false, status?_setStatus]
    by_cases heq : other = host
    · subst heq
      simp [h]
    · simp [heq]
  | some s =>
    by_cases heq : other = host
    · subst heq
      simp [h]
    · simp [heq]

theorem markServiced_of_seen {r : Registry} {host : Hostname} (h : r.status? host = some .seen)
    (task : TaskId) : r.markServiced host task
      = ({ r.setStatus host (.serviced task) with tasks := r.tasks.insert task host }, true) := by
  rw [markServiced, h]

theorem status?_markServiced {r : Registry} {host : Hostname} (h : r.status? host = some .seen)
    (task : TaskId) (other : Hostname) : (r.markServiced host task).1.status? other
      = if other = host then some (.serviced task) else r.status? other := by
  rw [markServiced_of_seen h]
  exact status?_setStatus r host other (.serviced task)

theorem hostOf?_markServiced {r : Registry} {host : Hostname} (h : r.status? host = some .seen)
    (task other : TaskId) : (r.markServiced host task).1.hostOf? other
      = if other = task then some host else r.hostOf? other := by
  rw [markServiced_of_seen h]
  exact Table.get?_insert r.tasks task other host

theorem taskOf?_markServiced {r : Registry} {host : Hostname} (h : r.status? host = some .seen)
    (task : TaskId) (other : Hostname) : (r.markServiced host task).1.taskOf? other
      = if other = host then some task else r.taskOf? other := by
  rw [taskOf?, status?_markServiced h]
  split <;> rfl

/-- A success is recorded for a host that has a task and is not completed, and for no other. -/
theorem markCompleted_cases : r.markCompleted host = (r, false) ∨
    ∃ s task, r.status? host = some s ∧ s.task? = some task ∧ s.isCompleted = false ∧
      r.markCompleted host = (r.setStatus host (.completed task), true) := by
  rw [markCompleted]
  cases h : r.status? host with
  | none => exact .inl rfl
  | some s =>
    cases s with
    | seen => exact .inl rfl
    | serviced task => exact .inr ⟨_, task, rfl, rfl, rfl, rfl⟩
    | completed task => exact .inl rfl
    | stalled task state => exact .inr ⟨_, task, rfl, rfl, rfl, rfl⟩

/-- A failure is recorded for a host whose task is under way, and for no other. -/
theorem markStalled_cases (state : TaskState) : r.markStalled host state = (r, false) ∨
    ∃ task, r.status? host = some (.serviced task) ∧
      r.markStalled host state = (r.setStatus host (.stalled task state), true) := by
  rw [markStalled]
  cases h : r.status? host with
  | none => exact .inl rfl
  | some s =>
    cases s with
    | seen => exact .inl rfl
    | serviced task => exact .inr ⟨task, rfl, rfl⟩
    | completed task => exact .inl rfl
    | stalled task state => exact .inl rfl

theorem status?_markCompleted : (r.markCompleted host).1.status? other
    = if other = host then (r.status? host).map .complete else r.status? other := by
  rw [markCompleted]
  cases h : r.status? host with
  | none => split <;> simp_all
  | some s => cases s <;> simp only [status?_setStatus] <;> split <;> simp_all [HostStatus.complete]

theorem status?_markStalled (state : TaskState) : (r.markStalled host state).1.status? other
    = if other = host then (r.status? host).map (.stall state) else r.status? other := by
  rw [markStalled]
  cases h : r.status? host with
  | none => split <;> simp_all
  | some s => cases s <;> simp only [status?_setStatus] <;> split <;> simp_all [HostStatus.stall]

/-! ### Listings -/

/-- The hosts that are listed as stalled. -/
theorem map_fst_stalled :
    r.stalled.map (·.1) = r.hosts.keysWhere fun s => s.stalledIn?.isSome := by
  rw [stalled, Table.keysWhere]
  induction r.hosts.entries with
  | nil => rfl
  | cons e rest ih => cases h : e.2.stalledIn? <;> simp [h, ih]

/-! ### Counts -/

theorem completedCount_le_knownCount : r.completedCount ≤ r.knownCount :=
  r.hosts.countWhere_le_size _

/-- All known hosts are counted as completed when each of them is. -/
theorem completedCount_eq_knownCount_iff {r : Registry} : r.completedCount = r.knownCount ↔
    ∀ host s, r.status? host = some s → s.isCompleted = true :=
  Table.countWhere_eq_size_iff

end Registry

end Rollout
