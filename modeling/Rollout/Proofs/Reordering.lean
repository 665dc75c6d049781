import Rollout.Proofs.Phase

/-!
Reports in another order.

The manager repeats its reports, and it promises no order. What a host ends up as hangs on which
endings its task is reported with and not on when or how often, but for one thing: the state in
which a host is stalled is the first one that comes. So the same reports, in any order and any
number, lead to the same counts, listings and phase, and where no task fails in two ways, to the
same scheduler. It makes no difference if one order ends the run halfway and the other one does not.
-/
namespace Rollout

/-- The state ends a task without success. -/
def TaskState.isFailure (state : TaskState) : Bool := state.isTerminal && !state.isSuccess

/-- No task fails in two different states. -/
def TaskStatus.Consistent (reports : List TaskStatus) : Prop :=
  ∀ r ∈ reports, ∀ r' ∈ reports, r.taskId = r'.taskId →
    r.state.isFailure = true → r'.state.isFailure = true → r.state = r'.state

instance {reports : List TaskStatus} : Decidable (TaskStatus.Consistent reports) :=
  inferInstanceAs (Decidable (∀ _ ∈ reports, _))

theorem TaskStatus.mem_endings_congr {a b : List TaskStatus} (h : ∀ r, r ∈ a ↔ r ∈ b)
    (task : TaskId) (state : TaskState) : state ∈ endings task a ↔ state ∈ endings task b := by
  simp only [endings, List.mem_map, List.mem_filter, h]

/-- Endings of one task agree where they are failures. -/
theorem TaskStatus.eq_of_mem_endings {reports : List TaskStatus} (h : Consistent reports)
    {task : TaskId} : ∀ x ∈ endings task reports, ∀ y ∈ endings task reports,
      x.isSuccess = false → y.isSuccess = false → x = y := by
  intro x hx y hy hxfail hyfail
  obtain ⟨r, hr, rfl⟩ := List.mem_map.1 hx
  obtain ⟨r', hr', rfl⟩ := List.mem_map.1 hy
  simp only [List.mem_filter, Bool.and_eq_true, beq_iff_eq] at hr hr'
  refine h r hr.1 r' hr'.1 (hr.2.1.trans hr'.2.1.symm) ?_ ?_
  · rw [TaskState.isFailure, hr.2.2, hxfail]; rfl
  · rw [TaskState.isFailure, hr'.2.2, hyfail]; rfl

namespace HostStatus

/-! ### One host -/

/-- Two statuses that differ at most in the state in which a host is stalled. -/
inductive Alike : HostStatus → HostStatus → Prop where
  | same (s : HostStatus) : Alike s s
  | stalled (task : TaskId) (first other : TaskState) :
      Alike (.stalled task first) (.stalled task other)

variable {s s' : HostStatus}

theorem isCompleted_of_alike (h : Alike s s') : s.isCompleted = s'.isCompleted := by cases h <;> rfl

theorem isPending_of_alike (h : Alike s s') : s.isPending = s'.isPending := by cases h <;> rfl

theorem isSome_stalledIn?_of_alike (h : Alike s s') :
    s.stalledIn?.isSome = s'.stalledIn?.isSome := by cases h <;> rfl

/-- Whether there is a failure among endings hangs on which endings there are. -/
theorem alike_verdict {es es' : List TaskState} (h : ∀ state, state ∈ es ↔ state ∈ es')
    (task : TaskId) : Alike (verdict task es) (verdict task es') := by
  rw [verdict, verdict]
  by_cases hfin : .finished ∈ es
  · rw [if_pos hfin, if_pos ((h _).1 hfin)]
    exact .same _
  · rw [if_neg hfin, if_neg fun hfin' => hfin ((h _).2 hfin')]
    have hnone : (es.find? fun state => !state.isSuccess) = none ↔
        (es'.find? fun state => !state.isSuccess) = none := by
      simp only [List.find?_eq_none, h]
    cases hes : es.find? fun state => !state.isSuccess with
    | none => rw [hnone.1 hes]; exact .same _
    | some first =>
      cases hes' : es'.find? fun state => !state.isSuccess with
      | none => rw [hnone.2 hes'] at hes; cases hes
      | some other => exact .stalled task first other

theorem mem_of_stalledIn?_verdict {task : TaskId} {es : List TaskState} {state : TaskState}
    (h : (verdict task es).stalledIn? = some state) : state ∈ es ∧ state.isSuccess = false := by
  rw [verdict] at h
  split at h
  · cases h
  · split at h
    · next first hfind =>
      cases h
      exact ⟨List.mem_of_find?_eq_some hfind, by simpa using List.find?_some hfind⟩
    · cases h

theorem eq_of_alike (h : Alike s s')
    (one : ∀ x y, s.stalledIn? = some x → s'.stalledIn? = some y → x = y) : s = s' := by
  cases h with
  | same => rfl
  | stalled task first other => rw [one first other rfl rfl]

/-- Which failure comes first makes no difference if all are the same. -/
theorem verdict_congr {es es' : List TaskState} (h : ∀ state, state ∈ es ↔ state ∈ es')
    (one : ∀ x ∈ es, ∀ y ∈ es, x.isSuccess = false → y.isSuccess = false → x = y)
    (task : TaskId) : verdict task es = verdict task es' := by
  refine eq_of_alike (alike_verdict h task) fun x y hx hy => ?_
  obtain ⟨hxmem, hxfail⟩ := mem_of_stalledIn?_verdict hx
  obtain ⟨hymem, hyfail⟩ := mem_of_stalledIn?_verdict hy
  exact one x hxmem y ((h y).2 hymem) hxfail hyfail

theorem foldl_hear_seen (reports : List TaskStatus) : reports.foldl hear .seen = .seen := by
  induction reports with
  | nil => rfl
  | cons r rest ih => exact ih

/-- Reports differ in what they make of a status only if they differ in a verdict. -/
theorem foldl_hear_rel {R : HostStatus → HostStatus → Prop} (refl : ∀ s, R s s)
    {a b : List TaskStatus} (h : ∀ r, r ∈ a ↔ r ∈ b)
    (hv : ∀ task, R (verdict task (TaskStatus.endings task a))
      (verdict task (TaskStatus.endings task b))) (s : HostStatus) :
    R (a.foldl hear s) (b.foldl hear s) := by
  cases s with
  | seen =>
    rw [foldl_hear_seen, foldl_hear_seen]
    exact refl _
  | serviced task =>
    rw [foldl_hear_serviced, foldl_hear_serviced]
    exact hv task
  | completed task =>
    rw [foldl_hear rfl, foldl_hear rfl, foldl_settle_completed, foldl_settle_completed]
    exact refl _
  | stalled task first =>
    rw [foldl_hear rfl, foldl_hear rfl, foldl_settle_stalled fun _ => isTerminal_of_mem_endings,
      foldl_settle_stalled fun _ => isTerminal_of_mem_endings]
    simp only [TaskStatus.mem_endings_congr h]
    exact refl _

theorem alike_foldl_hear {a b : List TaskStatus} (h : ∀ r, r ∈ a ↔ r ∈ b) (s : HostStatus) :
    Alike (a.foldl hear s) (b.foldl hear s) :=
  foldl_hear_rel .same h (fun task => alike_verdict (TaskStatus.mem_endings_congr h task) task) s

theorem foldl_hear_congr {a b : List TaskStatus} (h : ∀ r, r ∈ a ↔ r ∈ b)
    (hc : TaskStatus.Consistent a) (s : HostStatus) : a.foldl hear s = b.foldl hear s := by
  refine foldl_hear_rel (fun _ => rfl) h (fun task => ?_) s
  refine verdict_congr (TaskStatus.mem_endings_congr h task) ?_ task
  exact TaskStatus.eq_of_mem_endings hc

end HostStatus

namespace Registry

/-! ### All hosts -/

/-- Two registries that differ at most in the states in which hosts are stalled. -/
def Alike (r r' : Registry) : Prop :=
  ∀ host, Option.Rel HostStatus.Alike (r.status? host) (r'.status? host)

variable {r r' : Registry}

/-- Alike registries have the same listings. -/
theorem keysWhere_of_alike (h : Alike r r') {p : HostStatus → Bool}
    (hp : ∀ {s s'}, HostStatus.Alike s s' → p s = p s') :
    r.hosts.keysWhere p = r'.hosts.keysWhere p := by
  refine Table.keysWhere_congr fun host => ?_
  rw [Table.mem_keysWhere_iff, Table.mem_keysWhere_iff]
  have hhost := h host
  simp only [status?] at hhost
  generalize r.hosts.get? host = old at hhost
  generalize r'.hosts.get? host = new at hhost
  cases hhost with
  | none => exact Iff.rfl
  | some halike => simp [hp halike]

theorem countWhere_of_alike (h : Alike r r') {p : HostStatus → Bool}
    (hp : ∀ {s s'}, HostStatus.Alike s s' → p s = p s') :
    r.hosts.countWhere p = r'.hosts.countWhere p := by
  rw [Table.countWhere_eq_length, Table.countWhere_eq_length, keysWhere_of_alike h hp]

/-- Alike registries have the same hosts completed, by the same tasks. -/
theorem status?_completed_of_alike (h : Alike r r') (host : Hostname) (task : TaskId) :
    r.status? host = some (.completed task) ↔ r'.status? host = some (.completed task) := by
  have hhost := h host
  generalize r.status? host = old at hhost
  generalize r'.status? host = new at hhost
  cases hhost with
  | none => exact Iff.rfl
  | some halike => cases halike <;> simp

theorem knownCount_of_alike (h : Alike r r') : r.knownCount = r'.knownCount := by
  rw [knownCount, knownCount, Table.size_eq_countWhere, Table.size_eq_countWhere]
  exact countWhere_of_alike h fun _ => rfl

end Registry

namespace Scheduler

variable {d : Dispatcher} {s s' : Scheduler}

/-! ### Reports, one after the other -/

/-- The scheduler after some reports. -/
def hear (d : Dispatcher) (s : Scheduler) (reports : List TaskStatus) : Scheduler :=
  after d s (reports.map .report)

theorem drawn_hear (s : Scheduler) (reports : List TaskStatus) :
    (hear d s reports).roster.drawn = s.roster.drawn := by
  induction reports generalizing s with
  | nil => rfl
  | cons r rest ih => exact (ih _).trans (drawn_step_report s r)

theorem tasks_step_report (s : Scheduler) (report : TaskStatus) :
    (step d s (.report report)).registry.tasks = s.registry.tasks := by
  cases hdone : s.done with
  | true => rw [step_of_done hdone]
  | false =>
    rw [step, handleStatus_of_not_done hdone]
    exact Roster.tasks_absorb s.roster report

theorem tasks_hear (s : Scheduler) (reports : List TaskStatus) :
    (hear d s reports).registry.tasks = s.registry.tasks := by
  induction reports generalizing s with
  | nil => rfl
  | cons r rest ih => exact (ih _).trans (tasks_step_report s r)

/-- A host that is not known hears nothing. -/
theorem map_status?_step_report (hs : Sound d s) (ha : s.roster.Attributed) (report : TaskStatus)
    (host : Hostname) : (step d s (.report report)).registry.status? host
      = (s.registry.status? host).map (·.hear report) := by
  cases h : s.registry.status? host with
  | some st => exact status?_step_report hs ha h report
  | none =>
    cases hdone : s.done with
    | true => rw [step_of_done hdone, h, Option.map_none]
    | false =>
      simp only [registry] at h
      rw [step, handleStatus_of_not_done hdone]
      refine (Roster.status?_absorb s.roster report host).trans ?_
      rw [h, Option.map_none, ite_self, Option.map_none]

theorem status?_hear (hs : Sound d s) (ha : s.roster.Attributed) (hd : d.Distinct s.roster.drawn)
    (reports : List TaskStatus) (host : Hostname) : (hear d s reports).registry.status? host
      = (s.registry.status? host).map (reports.foldl HostStatus.hear) := by
  induction reports generalizing s with
  | nil => simp [hear, after]
  | cons r rest ih =>
    have hdrawn : (step d s (.report r)).roster.drawn = s.roster.drawn := drawn_step_report s r
    have hstep : (step d s (.report r)).roster.Attributed :=
      Roster.attributed_of_moves hs.coherent ha (moves_step s _) (hdrawn ▸ hd)
    refine (ih (sound_step hs _) hstep (hdrawn ▸ hd)).trans ?_
    rw [map_status?_step_report hs ha, Option.map_map]
    rfl

/-! ### Alike schedulers -/

/-- The counter and the latch follow from the registry. -/
theorem Sound.completed_of_alike (hs : Sound d s) (hs' : Sound d s')
    (h : s.registry.Alike s'.registry) : s.completed = s'.completed :=
  hs.coherent.counted.trans
    ((Registry.countWhere_of_alike h HostStatus.isCompleted_of_alike).trans
      hs'.coherent.counted.symm)

theorem Sound.done_of_alike (hs : Sound d s) (hs' : Sound d s')
    (h : s.registry.Alike s'.registry) : s.done = s'.done := by
  rw [Bool.eq_iff_iff, hs.latch, hs'.latch, hs.completed_of_alike hs' h,
    Registry.knownCount_of_alike h]

theorem Sound.phase_of_alike (hs : Sound d s) (hs' : Sound d s')
    (h : s.registry.Alike s'.registry) : s.phase = s'.phase := by
  rw [hs.phase_eq, hs'.phase_eq, hs.done_of_alike hs' h, Registry.knownCount_of_alike h]

/-- The same reports, in any order and any number, leave alike registries. -/
theorem alike_hear (hs : Sound d s) (ha : s.roster.Attributed) (hd : d.Distinct s.roster.drawn)
    {a b : List TaskStatus} (same : ∀ r, r ∈ a ↔ r ∈ b) :
    (hear d s a).registry.Alike (hear d s b).registry := by
  intro host
  rw [status?_hear hs ha hd, status?_hear hs ha hd]
  cases s.registry.status? host with
  | none => exact .none
  | some st => exact .some (HostStatus.alike_foldl_hear same st)

/-- A scheduler is known from its parts. -/
theorem eq_of_parts (hosts : s.registry.hosts = s'.registry.hosts)
    (tasks : s.registry.tasks = s'.registry.tasks) (count : s.completed = s'.completed)
    (drawn : s.roster.drawn = s'.roster.drawn) (done : s.done = s'.done) : s = s' := by
  obtain ⟨⟨⟨_, _⟩, _, _⟩, _⟩ := s
  obtain ⟨⟨⟨_, _⟩, _, _⟩, _⟩ := s'
  cases hosts; cases tasks; cases count; cases drawn; cases done
  rfl

/-- Reports that are consistent leave the same scheduler. -/
theorem hear_congr (hs : Sound d s) (ha : s.roster.Attributed) (hd : d.Distinct s.roster.drawn)
    {a b : List TaskStatus} (same : ∀ r, r ∈ a ↔ r ∈ b) (hc : TaskStatus.Consistent a) :
    hear d s a = hear d s b := by
  have hsa : Sound d (hear d s a) := sound_after hs _
  have hsb : Sound d (hear d s b) := sound_after hs _
  have halike := alike_hear hs ha hd same
  have hhosts : (hear d s a).registry.hosts = (hear d s b).registry.hosts := by
    refine Table.ext_get? fun host => ?_
    refine (status?_hear hs ha hd a host).trans ((status?_hear hs ha hd b host).trans ?_).symm
    rw [funext (HostStatus.foldl_hear_congr same hc)]
  have htasks : (hear d s a).registry.tasks = (hear d s b).registry.tasks :=
    (tasks_hear s a).trans (tasks_hear s b).symm
  exact eq_of_parts hhosts htasks (hsa.completed_of_alike hsb halike)
    ((drawn_hear s a).trans (drawn_hear s b).symm) (hsa.done_of_alike hsb halike)

/-- From any state that a run can reach, two lists of the same reports lead to the same count, the
same completed hosts with the same tasks, the same hosts under way and stalled, the same phase and
the same end, however the reports are ordered and repeated; and to the same scheduler if no task is
reported with two different failures. -/
theorem report_order_irrelevant (d : Dispatcher) (inputs : List Input)
    (distinct : d.Distinct (after d .initial inputs).roster.drawn) (a b : List TaskStatus)
    (same : ∀ r, r ∈ a ↔ r ∈ b) :
    let s := after d .initial inputs
    (hear d s a).completed = (hear d s b).completed ∧
    (∀ host task, (hear d s a).registry.status? host = some (.completed task) ↔
      (hear d s b).registry.status? host = some (.completed task)) ∧
    (hear d s a).registry.pending = (hear d s b).registry.pending ∧
    (hear d s a).registry.stalled.map (·.1) = (hear d s b).registry.stalled.map (·.1) ∧
    (hear d s a).phase = (hear d s b).phase ∧
    (hear d s a).done = (hear d s b).done ∧
    (TaskStatus.Consistent a → hear d s a = hear d s b) := by
  intro s
  have hs : Sound d s := sound_after sound_initial inputs
  have ha : s.roster.Attributed :=
    Roster.attributed_of_moves Roster.coherent_empty Roster.attributed_empty
      (moves_after .initial inputs) distinct
  have hsa : Sound d (hear d s a) := sound_after hs _
  have hsb : Sound d (hear d s b) := sound_after hs _
  have halike := alike_hear hs ha distinct same
  refine ⟨hsa.completed_of_alike hsb halike, fun host task => ?_,
    Registry.keysWhere_of_alike halike HostStatus.isPending_of_alike, ?_,
    hsa.phase_of_alike hsb halike, hsa.done_of_alike hsb halike, hear_congr hs ha distinct same⟩
  · exact Registry.status?_completed_of_alike halike host task
  · rw [Registry.map_fst_stalled, Registry.map_fst_stalled]
    exact Registry.keysWhere_of_alike halike HostStatus.isSome_stalledIn?_of_alike

/-- One order ends the run before its last report, the other one with it; both leave the same
scheduler. -/
theorem report_order_irrelevant_early_end :
    let inputs := [.offers [Sample.offer "o1" "h1", Sample.offer "o2" "h2"]]
    let s := after Sample.dispatcher .initial inputs
    let first : TaskId := Sample.dispatcher.taskId 0
    let second : TaskId := Sample.dispatcher.taskId 1
    let a : List TaskStatus :=
      [.bare first .finished, .bare second .lost, .bare second .finished, .bare first .failed]
    let b : List TaskStatus := [.bare first .failed, .bare second .finished, .bare second .lost,
      .bare second .finished, .bare first .finished]
    (hear Sample.dispatcher s (a.take 3)).done = true ∧
      (hear Sample.dispatcher s (b.take 4)).done = false ∧
      hear Sample.dispatcher s a = hear Sample.dispatcher s b := by
  intro inputs s first second a b
  have same : ∀ r, r ∈ a ↔ r ∈ b := by
    intro r
    simp only [a, b, List.mem_cons, List.not_mem_nil, or_false]
    tauto
  obtain ⟨-, -, -, -, -, -, hequal⟩ := report_order_irrelevant Sample.dispatcher inputs
    (Sample.distinct_dispatcher _) a b same
  exact ⟨by decide, by decide, hequal (by decide)⟩

end Scheduler

end Rollout
