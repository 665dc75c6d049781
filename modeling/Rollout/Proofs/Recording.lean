import Rollout.Proofs.History
import Rollout.Proofs.Transitions

/-!
A batch as the record of its launches.

All hosts of a batch are observed before the first offer is answered, and every answer looks at a
registry that the answers before it have changed. Neither shows in the end. The launches are those
on the offers at which a host without a task comes up for the first time, which can be read off the
batch, and the roster after the batch is the one before it with these launches recorded.
-/
namespace Rollout

/-! ### First offers -/

namespace Offer

variable {served : Hostname → Bool}

/-- The offer at a position is of a host that is not served and that has no earlier offer. -/
def opens (served : Hostname → Bool) (batch : List Offer) (p : Offer × Nat) : Bool :=
  !served p.1.hostname && (batch.take p.2).all (·.hostname != p.1.hostname)

/-- The offers of a batch at which a host that is not served comes up for the first time. -/
def firsts (served : Hostname → Bool) (batch : List Offer) : List Offer :=
  (batch.zipIdx.filter (opens served batch)).map (·.1)

/-- All other offers of a batch. -/
def others (served : Hostname → Bool) (batch : List Offer) : List Offer :=
  (batch.zipIdx.filter (!opens served batch ·)).map (·.1)

/-- Behind some offers, the first offer of a host is one that none of them serves. -/
theorem opens_append (before rest : List Offer) (o : Offer) :
    opens served (before ++ rest) (o, before.length) = !serve served before o.hostname := by
  rw [opens, List.take_left, serve, Bool.not_or, List.not_any_eq_all_not]
  rfl

/-- What is fresh behind some offers is what opens a host behind them, and the rest is stale. -/
theorem fresh_and_stale_behind (served : Hostname → Bool) (before rest : List Offer) :
    fresh (serve served before) rest
        = ((rest.zipIdx before.length).filter (opens served (before ++ rest))).map (·.1) ∧
      stale (serve served before) rest
        = ((rest.zipIdx before.length).filter (!opens served (before ++ rest) ·)).map (·.1) := by
  induction rest generalizing before with
  | nil => exact ⟨rfl, rfl⟩
  | cons o rest ih =>
    have hbehind := ih (before ++ [o])
    rw [serve_append, List.append_assoc, List.singleton_append, List.length_append,
      List.length_singleton] at hbehind
    rw [fresh, stale, List.zipIdx_cons, List.filter_cons, List.filter_cons, opens_append]
    by_cases hs : serve served before o.hostname = true
    · rw [serve_of_served hs] at hbehind
      simpa [hs] using hbehind
    · simpa [hs] using hbehind

theorem fresh_eq_firsts (served : Hostname → Bool) (batch : List Offer) :
    fresh served batch = firsts served batch := by
  have h := (fresh_and_stale_behind served [] batch).1
  rwa [serve_nil] at h

theorem stale_eq_others (served : Hostname → Bool) (batch : List Offer) :
    stale served batch = others served batch := by
  have h := (fresh_and_stale_behind served [] batch).2
  rwa [serve_nil] at h

theorem fresh_of_served {os : List Offer} (h : ∀ o ∈ os, served o.hostname = true) :
    fresh served os = [] := by
  induction os with
  | nil => rfl
  | cons o rest ih =>
    rw [fresh, if_pos (h o List.mem_cons_self)]
    exact ih fun x hx => h x (List.mem_cons_of_mem _ hx)

theorem stale_of_served {os : List Offer} (h : ∀ o ∈ os, served o.hostname = true) :
    stale served os = os := by
  induction os with
  | nil => rfl
  | cons o rest ih =>
    rw [stale, if_pos (h o List.mem_cons_self), ih fun x hx => h x (List.mem_cons_of_mem _ hx)]

end Offer

/-! ### Recording launches -/

namespace Registry

/-- The registry with a launch recorded: its host has the task, and the index leads back to it. -/
def record (r : Registry) (l : Launch) : Registry :=
  ⟨r.hosts.insert l.task.hostname (.serviced l.task.id), r.tasks.insert l.task.id l.task.hostname⟩

variable {r r' : Registry}

/-- Registries with the same statuses and the same index are the same. -/
theorem ext_status? (hosts : ∀ host, r.status? host = r'.status? host)
    (tasks : r.tasks = r'.tasks) : r = r' := by
  obtain ⟨hs, ts⟩ := r
  obtain ⟨hs', ts'⟩ := r'
  cases tasks
  congr
  exact Table.ext_get? hosts

theorem status?_record (l : Launch) (host : Hostname) : (r.record l).status? host =
    if host = l.task.hostname then some (.serviced l.task.id) else r.status? host :=
  Table.get?_insert r.hosts ..

theorem hostOf?_record (l : Launch) (task : TaskId) : (r.record l).hostOf? task =
    if task = l.task.id then some l.task.hostname else r.hostOf? task :=
  Table.get?_insert r.tasks ..

/-- Launches say nothing about other hosts. -/
theorem status?_recordAll {ls : List Launch} {host : Hostname}
    (h : ∀ l ∈ ls, l.task.hostname ≠ host) :
    (ls.foldl record r).status? host = r.status? host := by
  induction ls generalizing r with
  | nil => rfl
  | cons l rest ih =>
    have hl : host ≠ l.task.hostname := (h l List.mem_cons_self).symm
    rw [List.foldl_cons, ih fun x hx => h x (List.mem_cons_of_mem _ hx), status?_record, if_neg hl]

/-- Launches with new tasks, each with its own, add their pairs to the index. -/
theorem hostOf?_recordAll {ls : List Launch} (distinct : (ls.map (·.task.id)).Nodup)
    (new : ∀ l ∈ ls, r.hostOf? l.task.id = none) (task : TaskId) (host : Hostname) :
    (ls.foldl record r).hostOf? task = some host ↔
      r.hostOf? task = some host ∨ ∃ l ∈ ls, l.task.id = task ∧ l.task.hostname = host := by
  induction ls generalizing r with
  | nil => simp
  | cons l rest ih =>
    obtain ⟨hl, hrest⟩ := List.nodup_cons.1 distinct
    have hnew : ∀ x ∈ rest, (r.record l).hostOf? x.task.id = none := by
      intro x hx
      have hne : x.task.id ≠ l.task.id := by
        intro heq
        exact hl (List.mem_map.2 ⟨x, hx, heq⟩)
      rw [hostOf?_record, if_neg hne]
      exact new x (List.mem_cons_of_mem _ hx)
    rw [List.foldl_cons, ih hrest hnew, hostOf?_record]
    have hnone := new l List.mem_cons_self
    by_cases heq : task = l.task.id
    · subst heq
      simp [hnone]
    · simp [heq, Ne.symm heq]

end Registry

namespace Roster

/-- The roster with a launch recorded, which used up an identifier. -/
def record (r : Roster) (l : Launch) : Roster :=
  { r with registry := r.registry.record l, drawn := r.drawn + 1 }

/-- The roster with some launches recorded, one after the other. -/
def recordAll (r : Roster) (ls : List Launch) : Roster := ls.foldl record r

variable {d : Dispatcher} {r : Roster}

theorem recordAll_append (r : Roster) (a b : List Launch) :
    r.recordAll (a ++ b) = (r.recordAll a).recordAll b := List.foldl_append

theorem registry_recordAll (r : Roster) (ls : List Launch) :
    (r.recordAll ls).registry = ls.foldl Registry.record r.registry := by
  induction ls generalizing r with
  | nil => rfl
  | cons l rest ih => exact ih (r.record l)

/-! ### Observing is not seen in the end -/

/-- Observing a host that is served leaves the registry as it is. -/
theorem observeAll_cons_of_isServiced {o : Offer} (h : r.registry.isServiced o.hostname = true)
    (rest : List Offer) : r.observeAll (o :: rest) = r.observeAll rest := by
  have hsame : (r.registry.observe o.hostname).1 = r.registry := by
    rw [Registry.isServiced] at h
    rw [Registry.observe, Registry.isKnown_eq]
    cases hs : r.registry.status? o.hostname with
    | none => rw [hs] at h; cases h
    | some s => rfl
  rw [observeAll, List.foldl_cons, hsame, observeAll]

theorem tasks_observeAll (r : Roster) (os : List Offer) :
    (r.observeAll os).registry.tasks = r.registry.tasks := by
  induction os generalizing r with
  | nil => rfl
  | cons o rest ih =>
    refine (ih { r with registry := (r.registry.observe o.hostname).1 }).trans ?_
    simp only [Registry.observe]
    split <;> rfl

theorem tasks_enter_launch {o : Offer} (seen : r.registry.status? o.hostname = some .seen) :
    (r.enter (d.launch r.drawn o)).registry.tasks
      = r.registry.tasks.insert (d.taskId r.drawn) o.hostname :=
  congrArg (·.1.tasks) (Registry.markServiced_of_seen seen (d.taskId r.drawn))

/-- A launch on an offer whose host is observed with all others is a launch recorded before the
others are observed. -/
theorem enter_observeAll {o : Offer} (h : ¬r.registry.isServiced o.hostname = true)
    (rest : List Offer) : (r.observeAll (o :: rest)).enter (d.launch r.drawn o)
      = (r.record (d.launch r.drawn o)).observeAll rest := by
  have seen : (r.observeAll (o :: rest)).registry.status? o.hostname = some .seen :=
    status?_eq_seen (isKnown_observeAll List.mem_cons_self) (by rwa [isServiced_observeAll])
  have hregistry : ((r.observeAll (o :: rest)).enter (d.launch r.drawn o)).registry
      = ((r.record (d.launch r.drawn o)).observeAll rest).registry := by
    refine Registry.ext_status? (fun host => ?_) ?_
    · refine (status?_enter_launch (d := d) seen host).trans ?_
      rw [status?_observeAll, status?_observeAll, record, Registry.status?_record]
      by_cases heq : host = o.hostname
      · simp [heq, Dispatcher.launch, Dispatcher.buildTask, observeAll]
      · simp [heq, Ne.symm heq, Dispatcher.launch, Dispatcher.buildTask]
    · refine (tasks_enter_launch (d := d) seen).trans ?_
      rw [tasks_observeAll, tasks_observeAll]
      rfl
  exact congrArg (Roster.mk · r.completed (r.drawn + 1)) hregistry

theorem isServiced_record_launch (o : Offer) :
    (r.record (d.launch r.drawn o)).registry.isServiced
      = Offer.serve r.registry.isServiced [o] := by
  funext host
  rw [Registry.isServiced, record, Registry.status?_record]
  by_cases heq : host = o.hostname
  · subst heq
    rw [Offer.serve_self]
    simp [Dispatcher.launch, Dispatcher.buildTask, HostStatus.isServiced]
  · rw [Offer.serve_of_ne (Ne.symm heq)]
    simp [heq, Dispatcher.launch, Dispatcher.buildTask, Registry.isServiced]

/-- Offers that are answered after all of their hosts are observed leave the roster with their
launches recorded. -/
theorem foldl_answer_observeAll (r : Roster) (os : List Offer) (a : Dispatch) :
    (os.foldl d.answer (r.observeAll os, a)).1
      = r.recordAll (d.launches r.drawn (Offer.fresh r.registry.isServiced os)) := by
  induction os generalizing r a with
  | nil => rfl
  | cons o rest ih =>
    rw [List.foldl_cons, Offer.fresh]
    by_cases h : r.registry.isServiced o.hostname = true
    · rw [observeAll_cons_of_isServiced h, answer_of_isServiced (by rwa [isServiced_observeAll]),
        if_pos h, ih]
    · rw [answer_of_not_isServiced (by rwa [isServiced_observeAll]), if_neg h]
      have hstep := ih (r.record (d.launch r.drawn o))
      rw [isServiced_record_launch, ← enter_observeAll h] at hstep
      exact hstep _

/-- After a batch the roster is the one before it with the launches recorded. -/
theorem dispatch_fst (d : Dispatcher) (r : Roster) (os : List Offer) :
    (d.dispatch r os).1 = r.recordAll (d.dispatch r os).2.launches := by
  rw [dispatch_snd]
  exact foldl_answer_observeAll r os .empty

/-- A batch of served hosts is declined and leaves no trace. -/
theorem dispatch_of_served {os : List Offer}
    (h : ∀ o ∈ os, r.registry.isServiced o.hostname = true) :
    d.dispatch r os = (r, .decliningAll os) := by
  have hanswers : (d.dispatch r os).2 = .decliningAll os := by
    rw [dispatch_snd, Offer.fresh_of_served h, Offer.stale_of_served h]
    rfl
  have hroster := dispatch_fst d r os
  rw [hanswers] at hroster
  exact Prod.ext hroster hanswers

end Roster

/-! ### The reference -/

namespace Dispatcher

variable {d : Dispatcher}

theorem launches_eq_mapIdx (n : Nat) (os : List Offer) :
    d.launches n os = os.mapIdx fun i o => d.launch (n + i) o := by
  induction os generalizing n with
  | nil => rfl
  | cons o rest ih =>
    rw [launches, ih, List.mapIdx_cons]
    simp only [Nat.add_zero, Nat.add_right_comm, Nat.add_assoc]

/-- The identifiers that are drawn next. -/
def nextIds (d : Dispatcher) (drawn count : Nat) : List TaskId :=
  (List.range' drawn count).map d.taskId

theorem map_id_launches (n : Nat) (os : List Offer) :
    (d.launches n os).map (·.task.id) = d.nextIds n os.length := by
  induction os generalizing n with
  | nil => rfl
  | cons o rest ih => rw [launches, List.map_cons, ih]; rfl

/-- A batch leads to a launch on every offer whose host was not served before and is not the host of
an earlier offer of the batch, in the order of the batch, with the next identifier, the offer's
agent and host, the minimal request and the payload's command; all other offers are declined in
their order. The hosts launched for have exactly these tasks under way afterwards, the index has
gained exactly these pairs, and nothing else has changed. A batch of hosts that all have tasks, as
the same batch is when it comes again, is declined as a whole and changes nothing. -/
theorem first_offers_launched (payload : Payload) (taskId : Nat → TaskId) (r : Roster)
    (batch : List Offer) :
    let d := ofPayload payload taskId
    let firsts := Offer.firsts r.registry.isServiced batch
    let others := Offer.others r.registry.isServiced batch
    let r' := (d.dispatch r batch).1
    let launches := (d.dispatch r batch).2.launches
    (d.nextIds r.drawn firsts.length).Nodup →
    (∀ id ∈ d.nextIds r.drawn firsts.length, r.registry.hostOf? id = none) →
    launches = firsts.mapIdx (fun i o =>
      { offerId := o.id
        task :=
          { id := taskId (r.drawn + i)
            name := "task " ++ taskId (r.drawn + i)
            agentId := o.agentId
            hostname := o.hostname
            resources := .minimal
            command := payload.command } }) ∧
    (d.dispatch r batch).2.declined = others.map (·.id) ∧
    (∀ l ∈ launches, r'.registry.status? l.task.hostname = some (.serviced l.task.id)) ∧
    (∀ host, (∀ l ∈ launches, l.task.hostname ≠ host) →
      r'.registry.status? host = r.registry.status? host) ∧
    (∀ task host, r'.registry.hostOf? task = some host ↔ r.registry.hostOf? task = some host ∨
      ∃ l ∈ launches, l.task.id = task ∧ l.task.hostname = host) ∧
    (∀ again, (∀ o ∈ again, r.registry.isServiced o.hostname = true) →
      d.dispatch r again = (r, .decliningAll again)) ∧
    d.dispatch r' batch = (r', .decliningAll batch) := by
  intro d firsts others r' launches distinct new
  have hanswers := Roster.dispatch_snd d r batch
  have hlaunches : launches = d.launches r.drawn firsts :=
    (congrArg Dispatch.launches hanswers).trans (by rw [Offer.fresh_eq_firsts])
  have hregistry : r'.registry = launches.foldl Registry.record r.registry :=
    (congrArg Roster.registry (Roster.dispatch_fst d r batch)).trans
      (Roster.registry_recordAll r launches)
  have hanswered := Roster.answered_dispatch d r batch
  refine ⟨?_, ?_, ?_, ?_, ?_, fun again => Roster.dispatch_of_served, ?_⟩
  · rw [hlaunches, launches_eq_mapIdx]
    rfl
  · rw [hanswers, Offer.stale_eq_others]
  · intro l hl
    rw [hlaunches] at hl
    refine hanswered.launched l ?_
    rwa [Offer.fresh_eq_firsts]
  · intro host hhost
    rw [hregistry, Registry.status?_recordAll hhost]
  · have hids : launches.map (·.task.id) = d.nextIds r.drawn firsts.length := by
      rw [hlaunches, map_id_launches]
    rw [hregistry]
    refine Registry.hostOf?_recordAll (hids ▸ distinct) fun l hl => new _ ?_
    rw [← hids]
    exact List.mem_map_of_mem hl
  · refine Roster.dispatch_of_served fun o ho => ?_
    rw [hanswered.served, Offer.serve, Bool.or_eq_true]
    exact .inr (List.any_eq_true.2 ⟨o, ho, beq_self_eq_true _⟩)

/-- One host waits for a task, one has its task under way and one is stalled; a batch offers all
three of them, and a new one twice. -/
theorem first_offers_launched_mixed :
    let d := ofPayload Sample.dispatcher.payload Sample.dispatcher.taskId
    let r : Roster := ⟨Registry.empty.performAll [.observe "h1", .observe "h2",
      .markServiced "h2" "u", .observe "h3", .markServiced "h3" "v", .markStalled "h3" .lost], 0, 2⟩
    let batch := [Sample.offer "o1" "h4", Sample.offer "o2" "h2", Sample.offer "o3" "h1",
      Sample.offer "o4" "h4", Sample.offer "o5" "h3"]
    let ids := d.nextIds r.drawn (Offer.firsts r.registry.isServiced batch).length
    ids.Nodup ∧ (∀ id ∈ ids, r.registry.hostOf? id = none) ∧
      (d.dispatch r batch).2.declined = ["o2", "o4", "o5"] ∧
      (d.dispatch r batch).1.registry.hostOf? "v" = some "h3" ∧
      d.dispatch (d.dispatch r batch).1 batch
        = ((d.dispatch r batch).1, .decliningAll batch) := by
  intro d r batch ids
  have distinct : ids.Nodup := by decide
  have new : ∀ id ∈ ids, r.registry.hostOf? id = none := by decide
  have hothers : (Offer.others r.registry.isServiced batch).map (·.id) = ["o2", "o4", "o5"] := by
    decide
  have hv : r.registry.hostOf? "v" = some "h3" := by decide
  obtain ⟨-, hdeclined, -, -, hindex, -, hagain⟩ := first_offers_launched
    Sample.dispatcher.payload Sample.dispatcher.taskId r batch distinct new
  -- the facts name the dispatcher in full; the goal has to, or the batch would be dispatched here
  have hd : d = ofPayload Sample.dispatcher.payload Sample.dispatcher.taskId := rfl
  rw [hd]
  exact ⟨distinct, new, hdeclined.trans hothers, (hindex "v" "h3").2 (.inl hv), hagain⟩

end Dispatcher

end Rollout
