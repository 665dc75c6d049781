import Rollout.Proofs.Registry
import Mathlib.Logic.Relation

/-!
How a registry changes.

An operation on a registry is refused and leaves it as it is, or it is one change: a host becomes
known, gets its task, succeeds or fails. Every change brings one host forward, so whatever holds of
a host for good holds of it after every sequence of changes, and the counts of such hosts only grow.
-/
namespace Rollout.Registry

/-- One change of a registry. -/
inductive Change (r : Registry) : Registry → Prop where
  /-- A host becomes known. -/
  | observe {host : Hostname} (new : r.status? host = none) : Change r (r.setStatus host .seen)
  /-- A task is launched for a host that waits for one. -/
  | serve {host : Hostname} (seen : r.status? host = some .seen) (task : TaskId) :
      Change r (r.markServiced host task).1
  /-- A host that has a task succeeds for the first time. -/
  | complete {host : Hostname} {s : HostStatus} {task : TaskId} (status : r.status? host = some s)
      (has : s.task? = some task) (first : s.isCompleted = false) :
      Change r (r.setStatus host (.completed task))
  /-- A host whose task is under way fails. -/
  | stall {host : Hostname} {task : TaskId} (status : r.status? host = some (.serviced task))
      (state : TaskState) : Change r (r.setStatus host (.stalled task state))

/-- Some changes, one after the other. -/
abbrev Changes : Registry → Registry → Prop := Relation.ReflTransGen Change

variable {r r' : Registry} {p : HostStatus → Bool}

/-- An operation is refused, or it is a change. -/
theorem perform_cases (r : Registry) (op : Operation) :
    r.perform op = (r, false) ∨ ∃ r', Change r r' ∧ r.perform op = (r', true) := by
  cases op with
  | observe host =>
    rw [perform, observe, isKnown_eq]
    cases h : r.status? host with
    | none => exact .inr ⟨_, .observe h, rfl⟩
    | some s => exact .inl rfl
  | markServiced host task =>
    by_cases h : r.status? host = some .seen
    · exact .inr ⟨_, .serve h task, by rw [perform, markServiced_of_seen h]⟩
    · refine .inl ?_
      rw [perform, markServiced]
      split
      · next hseen => exact absurd hseen h
      · rfl
  | markCompleted host =>
    rcases r.markCompleted_cases host with h | ⟨s, task, hs, ht, hf, h⟩
    · exact .inl h
    · exact .inr ⟨_, .complete hs ht hf, h⟩
  | markStalled host state =>
    rcases r.markStalled_cases host state with h | ⟨task, hs, h⟩
    · exact .inl h
    · exact .inr ⟨_, .stall hs state, h⟩

theorem changes_perform (r : Registry) (op : Operation) : Changes r (r.perform op).1 := by
  rcases r.perform_cases op with h | ⟨r', hchange, h⟩ <;> rw [h]
  exact .single hchange

/-! ### What lasts -/

/-- A change gives one host a new status, which has what lasts if the old one had it. -/
theorem exists_insert_of_change (hp : HostStatus.Lasting p) (h : Change r r') :
    ∃ changed s, r'.hosts = r.hosts.insert changed s ∧
      ∀ old, r.status? changed = some old → p old = true → p s = true := by
  cases h with
  | @observe changed new =>
    refine ⟨changed, .seen, rfl, fun old hold => ?_⟩
    rw [new] at hold
    cases hold
  | @serve changed seen task =>
    refine ⟨changed, .serviced task, by rw [markServiced_of_seen seen]; rfl, fun old hold => ?_⟩
    cases seen.symm.trans hold
    exact hp.launch task
  | @complete changed s task status has first =>
    refine ⟨changed, .completed task, rfl, fun old hold => ?_⟩
    cases status.symm.trans hold
    exact hp.complete has
  | @stall changed task status state =>
    refine ⟨changed, .stalled task state, rfl, fun old hold => ?_⟩
    cases status.symm.trans hold
    exact hp.stall task state

/-- Counts of what lasts never fall. -/
theorem countWhere_le_of_change (hp : HostStatus.Lasting p) (h : Change r r') :
    r.hosts.countWhere p ≤ r'.hosts.countWhere p := by
  obtain ⟨changed, s, hinsert, hs⟩ := exists_insert_of_change hp h
  rw [hinsert]
  exact Table.countWhere_le_insert hs

/-- What once holds of a host for good is not taken from it. -/
theorem lasts_of_change (hp : HostStatus.Lasting p) (h : Change r r') {host : Hostname}
    (hhost : ∃ s, r.status? host = some s ∧ p s = true) :
    ∃ s, r'.status? host = some s ∧ p s = true := by
  obtain ⟨changed, s, hinsert, hs⟩ := exists_insert_of_change hp h
  obtain ⟨old, hold, hpold⟩ := hhost
  rw [status?, hinsert, Table.get?_insert]
  by_cases heq : host = changed
  · subst heq
    exact ⟨s, if_pos rfl, hs old hold hpold⟩
  · exact ⟨old, (if_neg heq).trans hold, hpold⟩

theorem countWhere_le_of_changes (hp : HostStatus.Lasting p) (h : Changes r r') :
    r.hosts.countWhere p ≤ r'.hosts.countWhere p := by
  induction h with
  | refl => exact le_rfl
  | tail _ hchange ih => exact ih.trans (countWhere_le_of_change hp hchange)

theorem lasts_of_changes (hp : HostStatus.Lasting p) (h : Changes r r') {host : Hostname}
    (hhost : ∃ s, r.status? host = some s ∧ p s = true) :
    ∃ s, r'.status? host = some s ∧ p s = true := by
  induction h with
  | refl => exact hhost
  | tail _ hchange ih => exact lasts_of_change hp hchange ih

/-- A known host stays known. -/
theorem isKnown_of_changes (h : Changes r r') {host : Hostname} (hk : r.isKnown host = true) :
    r'.isKnown host = true := by
  rw [isKnown_eq, Option.isSome_iff_exists] at hk ⊢
  obtain ⟨s, hs⟩ := hk
  obtain ⟨s', hs', -⟩ := lasts_of_changes HostStatus.lasting_true h ⟨s, hs, rfl⟩
  exact ⟨s', hs'⟩

/-! ### Tasks and their index -/

/-- A task is never taken from its host. -/
theorem taskOf?_of_changes (h : Changes r r') {host : Hostname} {task : TaskId}
    (ht : r.taskOf? host = some task) : r'.taskOf? host = some task := by
  obtain ⟨old, hold, htask⟩ := taskOf?_eq_some.1 ht
  obtain ⟨s, hs, hsame⟩ :=
    lasts_of_changes (HostStatus.lasting_task task) h ⟨old, hold, decide_eq_true htask⟩
  exact taskOf?_eq_some.2 ⟨s, hs, of_decide_eq_true hsame⟩

/-- Changes leave the index of tasks alone, but for a launch. -/
theorem hostOf?_of_change (h : Change r r') {task : TaskId} {host : Hostname}
    (ht : r'.hostOf? task = some host) :
    r.hostOf? task = some host ∨ r'.taskOf? host = some task := by
  cases h with
  | observe | complete | stall => exact .inl ht
  | @serve changed seen launched =>
    rw [hostOf?_markServiced seen] at ht
    split at ht
    · next heq =>
      cases ht
      refine .inr ?_
      rw [taskOf?_markServiced seen, if_pos rfl, heq]
    · exact .inl ht

/-- The index leads from a task to a host that has it. -/
def Indexed (r : Registry) : Prop :=
  ∀ {task host}, r.hostOf? task = some host → r.taskOf? host = some task

theorem indexed_empty : Indexed empty := fun h => by cases h

theorem indexed_of_change (hr : r.Indexed) (h : Change r r') : r'.Indexed := fun ht =>
  (hostOf?_of_change h ht).elim (fun hold => taskOf?_of_changes (.single h) (hr hold)) id

theorem indexed_of_changes (hr : r.Indexed) (h : Changes r r') : r'.Indexed := by
  induction h with
  | refl => exact hr
  | tail _ hchange ih => exact indexed_of_change ih hchange

/-! ### Counts -/

theorem completedCount_le_servicedCount (r : Registry) : r.completedCount ≤ r.servicedCount :=
  List.countP_mono_left fun _ _ => HostStatus.isServiced_of_isCompleted

theorem servicedCount_le_knownCount (r : Registry) : r.servicedCount ≤ r.knownCount :=
  r.hosts.countWhere_le_size _

end Rollout.Registry
