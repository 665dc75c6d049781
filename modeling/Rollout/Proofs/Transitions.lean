import Mathlib.Data.Set.Function
import Rollout.Proofs.Changes

/-!
The life of a host in the registry.

Each host runs a small automaton of its own: what an operation makes of the status of the host that
it names is read off that status, and an operation that the status does not allow is refused. So the
operations that were carried out on a host tell its whole life, in one of six forms, and a status
never goes back. The index of tasks is kept beside the statuses; it leads to hosts that have the
task, and from every served host back as long as no two hosts are given one task.
-/
namespace Rollout.Registry

/-! ### The automaton of a host -/

namespace Operation

/-- The host that an operation is about. -/
def host : Operation → Hostname
  | .observe host | .markServiced host _ | .markCompleted host | .markStalled host _ => host

/-- The task that an operation enters in the index. -/
def task? : Operation → Option TaskId
  | .markServiced _ task => some task
  | .observe _ | .markCompleted _ | .markStalled .. => none

/-- What an operation makes of the status of its host; nothing where the status does not allow
it. -/
def next? : Operation → Option HostStatus → Option HostStatus
  | .observe _, none => some .seen
  | .markServiced _ task, some .seen => some (.serviced task)
  | .markStalled _ state, some (.serviced task) => some (.stalled task state)
  | .markCompleted _, some (.serviced task) => some (.completed task)
  | .markCompleted _, some (.stalled task _) => some (.completed task)
  | _, _ => none

end Operation

/-- A step of a host: from no status to `seen`, and on from there. -/
inductive Advance : Option HostStatus → HostStatus → Prop where
  | observe : Advance none .seen
  | launch (task : TaskId) : Advance (some .seen) (.serviced task)
  | stall (task : TaskId) (state : TaskState) :
      Advance (some (.serviced task)) (.stalled task state)
  | complete (task : TaskId) : Advance (some (.serviced task)) (.completed task)
  | recover (task : TaskId) (state : TaskState) :
      Advance (some (.stalled task state)) (.completed task)

variable {r : Registry} {op : Operation} {host : Hostname} {task : TaskId}

theorem advance_of_next? {old : Option HostStatus} {s : HostStatus} (h : op.next? old = some s) :
    Advance old s := by
  cases op <;> rcases old with _ | _ | _ | _ | _ <;> cases h <;> constructor

/-- The registry with a step of one host entered. -/
def enter (r : Registry) (op : Operation) (s : HostStatus) : Registry where
  hosts := r.hosts.insert op.host s
  tasks := match op.task? with
    | some task => r.tasks.insert task op.host
    | none => r.tasks

/-- An operation is carried out if the status of its host allows it, and changes nothing
otherwise. -/
theorem perform_eq (r : Registry) (op : Operation) : r.perform op =
    match op.next? (r.status? op.host) with
    | some s => (r.enter op s, true)
    | none => (r, false) := by
  cases op with
  | observe host =>
    rw [perform, observe, isKnown_eq, Operation.host]
    cases r.status? host <;> rfl
  | markServiced host task =>
    rw [perform, markServiced, Operation.host]
    rcases r.status? host with _ | _ | _ | _ | _ <;> rfl
  | markCompleted host =>
    rw [perform, markCompleted, Operation.host]
    rcases r.status? host with _ | _ | _ | _ | _ <;> rfl
  | markStalled host state =>
    rw [perform, markStalled, Operation.host]
    rcases r.status? host with _ | _ | _ | _ | _ <;> rfl

theorem perform_of_some {s : HostStatus} (h : op.next? (r.status? op.host) = some s) :
    r.perform op = (r.enter op s, true) := by rw [perform_eq, h]

theorem perform_of_none (h : op.next? (r.status? op.host) = none) :
    r.perform op = (r, false) := by rw [perform_eq, h]

theorem status?_enter (s : HostStatus) (host : Hostname) :
    (r.enter op s).status? host = if host = op.host then some s else r.status? host :=
  Table.get?_insert r.hosts op.host host s

theorem hostOf?_enter (s : HostStatus) (task : TaskId) : (r.enter op s).hostOf? task =
    if op.task? = some task then some op.host else r.hostOf? task := by
  rw [hostOf?, enter]
  cases h : op.task? with
  | none => rfl
  | some launched =>
    rw [Table.get?_insert, hostOf?]
    simp only [Option.some.injEq, eq_comm]

/-! ### Sequences of operations -/

/-- The registry after some operations. -/
def performAll (r : Registry) (ops : List Operation) : Registry :=
  ops.foldl (fun r op => (r.perform op).1) r

/-- The operations that are carried out, in their order. -/
def carriedOut (r : Registry) : List Operation → List Operation
  | [] => []
  | op :: rest =>
    if (r.perform op).2 then op :: carriedOut (r.perform op).1 rest
    else carriedOut (r.perform op).1 rest

/-- The tasks that some operations launch, each with its host. -/
def launched (ops : List Operation) : List (TaskId × Hostname) :=
  (empty.carriedOut ops).filterMap fun op => op.task?.map (·, op.host)

theorem performAll_append (r : Registry) (a b : List Operation) :
    r.performAll (a ++ b) = (r.performAll a).performAll b := List.foldl_append

theorem performAll_concat (r : Registry) (ops : List Operation) (op : Operation) :
    r.performAll (ops ++ [op]) = ((r.performAll ops).perform op).1 := performAll_append r ops [op]

theorem carriedOut_concat (r : Registry) (ops : List Operation) (op : Operation) :
    r.carriedOut (ops ++ [op])
      = r.carriedOut ops ++ if ((r.performAll ops).perform op).2 then [op] else [] := by
  induction ops generalizing r with
  | nil => rfl
  | cons first rest ih =>
    rw [List.cons_append, carriedOut, carriedOut, ih]
    split <;> rfl

theorem carriedOut_sublist (r : Registry) (ops : List Operation) :
    (r.carriedOut ops).Sublist ops := by
  induction ops generalizing r with
  | nil => exact .slnil
  | cons op rest ih =>
    rw [carriedOut]
    split
    · exact (ih _).cons_cons op
    · exact (ih _).cons op

theorem changes_performAll (r : Registry) (ops : List Operation) :
    r.Changes (r.performAll ops) := by
  induction ops generalizing r with
  | nil => exact .refl
  | cons op rest ih => exact (changes_perform r op).trans (ih _)

/-! ### The life of a host -/

/-- The operations that were carried out on a host of a status, from its first offer on. -/
inductive Life (host : Hostname) : Option HostStatus → List Operation → Prop where
  | unknown : Life host none []
  | seen : Life host (some .seen) [.observe host]
  | serviced (task : TaskId) :
      Life host (some (.serviced task)) [.observe host, .markServiced host task]
  | stalled (task : TaskId) (state : TaskState) :
      Life host (some (.stalled task state))
        [.observe host, .markServiced host task, .markStalled host state]
  | completed (task : TaskId) :
      Life host (some (.completed task))
        [.observe host, .markServiced host task, .markCompleted host]
  | recovered (task : TaskId) (state : TaskState) :
      Life host (some (.completed task))
        [.observe host, .markServiced host task, .markStalled host state, .markCompleted host]

/-- A step goes on with the life of its host. -/
theorem Life.next {old : Option HostStatus} {done : List Operation} {s : HostStatus}
    (h : Life op.host old done) (hnext : op.next? old = some s) :
    Life op.host (some s) (done ++ [op]) := by
  cases op with
  | observe host =>
    cases h <;> cases hnext
    exact .seen
  | markServiced host task =>
    cases h <;> cases hnext
    exact .serviced task
  | markCompleted host =>
    cases h <;> cases hnext
    · exact .completed _
    · exact .recovered _ _
  | markStalled host state =>
    cases h <;> cases hnext
    exact .stalled _ state

/-- Whatever is done to a fresh registry, the operations carried out on each host are its life. -/
theorem life_performAll (ops : List Operation) (host : Hostname) :
    Life host ((empty.performAll ops).status? host)
      ((empty.carriedOut ops).filter (·.host == host)) := by
  induction ops using List.reverseRecOn with
  | nil => exact .unknown
  | append_singleton ops op ih =>
    rw [performAll_concat, carriedOut_concat, List.filter_append]
    cases hnext : op.next? ((empty.performAll ops).status? op.host) with
    | none =>
      rw [perform_of_none hnext]
      simpa using ih
    | some s =>
      rw [perform_of_some hnext, status?_enter]
      by_cases heq : host = op.host
      · subst heq
        simpa using ih.next hnext
      · simpa [heq, Ne.symm heq] using ih

variable {ops : List Operation}

theorem Life.task?_iff {old : Option HostStatus} {done : List Operation} (h : Life host old done) :
    old.bind HostStatus.task? = some task ↔ .markServiced host task ∈ done := by
  cases h <;> simp [HostStatus.task?, eq_comm]

/-- What is carried out on a host is part of its life. -/
theorem mem_life_iff (ops : List Operation) (op : Operation) :
    op ∈ (empty.carriedOut ops).filter (·.host == op.host) ↔ op ∈ empty.carriedOut ops := by
  simp [List.mem_filter]

theorem mem_launched_iff :
    (task, host) ∈ launched ops ↔ .markServiced host task ∈ empty.carriedOut ops := by
  simp only [launched, List.mem_filterMap, Option.map_eq_some_iff, Prod.mk.injEq]
  constructor
  · rintro ⟨op, hop, launch, htask, rfl, rfl⟩
    cases op with
    | markServiced host task => cases htask; exact hop
    | observe | markCompleted | markStalled => cases htask
  · intro hop
    exact ⟨_, hop, task, rfl, rfl, rfl⟩

/-! ### Tasks and hosts -/

/-- A host has the task that was launched for it. -/
theorem taskOf?_performAll_iff :
    (empty.performAll ops).taskOf? host = some task ↔ (task, host) ∈ launched ops := by
  rw [taskOf?, (life_performAll ops host).task?_iff, mem_launched_iff]
  exact mem_life_iff ops (.markServiced host task)

theorem indexed_performAll (ops : List Operation) : (empty.performAll ops).Indexed :=
  indexed_of_changes indexed_empty (changes_performAll empty ops)

/-- A launched task stays in the index. -/
theorem exists_hostOf?_of_carriedOut (hop : op ∈ empty.carriedOut ops)
    (htask : op.task? = some task) : ∃ host, (empty.performAll ops).hostOf? task = some host := by
  induction ops using List.reverseRecOn with
  | nil => cases hop
  | append_singleton ops last ih =>
    rw [carriedOut_concat, List.mem_append] at hop
    rw [performAll_concat]
    cases hnext : last.next? ((empty.performAll ops).status? last.host) with
    | none =>
      rw [perform_of_none hnext] at hop ⊢
      exact ih (by simpa using hop)
    | some s =>
      rw [perform_of_some hnext] at hop ⊢
      rw [hostOf?_enter]
      split
      · exact ⟨last.host, rfl⟩
      · next hne =>
        refine ih (hop.resolve_right fun hlast => hne ?_)
        rwa [← List.mem_singleton.1 hlast]

/-- If no task is launched twice, the index leads from the task of a host to that host. -/
theorem hostOf?_of_taskOf? (once : ((launched ops).map (·.1)).Nodup)
    (h : (empty.performAll ops).taskOf? host = some task) :
    (empty.performAll ops).hostOf? task = some host := by
  have hmem := taskOf?_performAll_iff.1 h
  obtain ⟨found, hfound⟩ := exists_hostOf?_of_carriedOut (mem_launched_iff.1 hmem) rfl
  have hsame := taskOf?_performAll_iff.1 (indexed_performAll ops hfound)
  have heq : (task, found) = (task, host) := List.inj_on_of_nodup_map once hsame hmem rfl
  rwa [(Prod.mk.inj heq).2] at hfound

/-- If no task is launched twice, each launched task leads to a host of its own, and every served
host is reached. -/
theorem bijOn_hostOf? (once : ((launched ops).map (·.1)).Nodup) :
    Set.BijOn (empty.performAll ops).hostOf? {task | ∃ host, (task, host) ∈ launched ops}
      (some '' {host | (empty.performAll ops).isServiced host = true}) := by
  refine ⟨?_, ?_, ?_⟩
  · rintro task ⟨host, hmem⟩
    have htask := taskOf?_performAll_iff.2 hmem
    refine ⟨host, ?_, (hostOf?_of_taskOf? once htask).symm⟩
    exact (isServiced_eq ..).trans (by rw [htask]; rfl)
  · rintro task ⟨host, hmem⟩ other - heq
    have hof := hostOf?_of_taskOf? once (taskOf?_performAll_iff.2 hmem)
    have hsame := indexed_performAll ops (heq.symm.trans hof)
    exact Option.some.inj ((indexed_performAll ops hof).symm.trans hsame)
  · rintro _ ⟨host, hserved, rfl⟩
    rw [Set.mem_ofPred_eq, isServiced_eq, Option.isSome_iff_exists] at hserved
    obtain ⟨task, htask⟩ := hserved
    exact ⟨task, ⟨host, taskOf?_performAll_iff.1 htask⟩, hostOf?_of_taskOf? once htask⟩

/-- Whatever operations are done to a fresh registry: one that is refused changes nothing; one that
is carried out takes the host it names a step on, enters the task it names in the index if it names
one, and changes nothing else. No status ever falls back, and a task that a host once has it keeps.
The index leads from a task to a host that has it; and if no task is launched twice it leads back
from every served host, so that launched tasks and served hosts belong together one to one. -/
theorem advances_in_order (ops : List Operation) :
    let r := empty.performAll ops
    (∀ op, let r' := (r.perform op).1
      ((r.perform op).2 = false → r' = r) ∧
      ((r.perform op).2 = true →
        (∀ host, host ≠ op.host → r'.status? host = r.status? host) ∧
        (∀ task, r'.hostOf? task
          = if op.task? = some task then some op.host else r.hostOf? task) ∧
        ∃ s, r'.status? op.host = some s ∧ Advance (r.status? op.host) s)) ∧
    (∀ later host s, r.status? host = some s →
      ∃ s', (r.performAll later).status? host = some s' ∧ s.rank ≤ s'.rank ∧
        ∀ task, s.task? = some task → s'.task? = some task) ∧
    (∀ task host, r.hostOf? task = some host → r.taskOf? host = some task) ∧
    (((launched ops).map (·.1)).Nodup →
      (∀ host task, r.taskOf? host = some task → r.hostOf? task = some host) ∧
      Set.BijOn r.hostOf? {task | ∃ host, (task, host) ∈ launched ops}
        (some '' {host | r.isServiced host = true})) := by
  intro r
  refine ⟨fun op => ?_, fun later host s hs => ?_, fun task host => indexed_performAll ops,
    fun once => ⟨fun host task => hostOf?_of_taskOf? once, bijOn_hostOf? once⟩⟩
  · cases hnext : op.next? (r.status? op.host) with
    | none =>
      rw [perform_of_none hnext]
      exact ⟨fun _ => rfl, fun h => (nomatch h)⟩
    | some s =>
      rw [perform_of_some hnext]
      refine ⟨fun h => (nomatch h), fun _ => ⟨fun host hne => ?_, hostOf?_enter s, s, ?_, ?_⟩⟩
      · rw [status?_enter, if_neg hne]
      · rw [status?_enter, if_pos rfl]
      · exact advance_of_next? hnext
  · have hlater := changes_performAll r later
    obtain ⟨s', hs', hrank⟩ := lasts_of_changes (HostStatus.lasting_rank s.rank) hlater
      ⟨s, hs, decide_eq_true le_rfl⟩
    refine ⟨s', hs', of_decide_eq_true hrank, fun task htask => ?_⟩
    obtain ⟨same, hsame, hkeeps⟩ := taskOf?_eq_some.1
      (taskOf?_of_changes hlater (taskOf?_eq_some.2 ⟨s, hs, htask⟩))
    rwa [Option.some.inj (hs'.symm.trans hsame)]

/-- One host fails and recovers, another is given a second task, which is refused. -/
theorem advances_in_order_recovered :
    let ops : List Operation := [.observe "h1", .markServiced "h1" "t1", .observe "h2",
      .markStalled "h1" .lost, .markServiced "h2" "t2", .markServiced "h2" "t3",
      .markCompleted "h1"]
    let r := empty.performAll ops
    ((launched ops).map (·.1)).Nodup ∧ r.status? "h1" = some (.completed "t1") ∧
      r.hostOf? "t1" = some "h1" ∧ r.hostOf? "t2" = some "h2" := by
  intro ops r
  have once : ((launched ops).map (·.1)).Nodup := by decide
  obtain ⟨-, -, -, hback⟩ := advances_in_order ops
  have hindex := (hback once).1
  exact ⟨once, by decide, hindex "h1" "t1" (by decide), hindex "h2" "t2" (by decide)⟩

/-- A task that is launched for two hosts leads to the second one only. -/
example :
    let r := empty.performAll [.observe "h1", .observe "h2", .markServiced "h1" "t",
      .markServiced "h2" "t"]
    r.taskOf? "h1" = some "t" ∧ r.taskOf? "h2" = some "t" ∧ r.hostOf? "t" = some "h2" := by
  decide

end Rollout.Registry
