import Rollout.Run
import Rollout.Proofs.History

/-!
What a run asks of the manager.

The commands of a run are known without its manager: they are the replies of the scheduler to the
events that are handled, with a stop behind them once the scheduler is done. Answers to commands and
waiting for the pacer change neither the scheduler nor what comes next, so that a run is followed by
looking at a scheduler alone.
-/
namespace Rollout

variable {σ : Type}

/-! ### Inputs and commands -/

namespace Event

/-- What the scheduler is given of an event. -/
def input? : Event → Option Input
  | .offers batch => some (.offers batch)
  | .status report => some (.report report)
  | .registered _ | .rescinded _ | .error _ => none

/-- What the scheduler is given of some events. -/
def inputs (events : List (Nat × Event)) : List Input := events.filterMap (·.2.input?)

theorem inputs_cons (arrival : Nat) (e : Event) (rest : List (Nat × Event)) :
    inputs ((arrival, e) :: rest) = e.input?.toList ++ inputs rest := by
  cases h : e.input? <;> simp [inputs, h]

theorem inputs_append (a b : List (Nat × Event)) : inputs (a ++ b) = inputs a ++ inputs b :=
  List.filterMap_append

end Event

/-- The state of a manager after some commands. -/
def Manager.after (m : Manager σ) (state : σ) (cs : List Command) : σ :=
  cs.foldl (fun state c => (m.perform c state).2) state

theorem Manager.after_append (m : Manager σ) (state : σ) (a b : List Command) :
    m.after state (a ++ b) = m.after (m.after state a) b := List.foldl_append

namespace Trace

/-- The commands of a trace, in their order. -/
def given (t : Trace) : List Command := t.commands.map (·.2.1)

theorem given_append (a b : Trace) : given (a ++ b) = given a ++ given b := by
  rw [given, commands, List.filterMap_append, List.map_append]
  rfl

theorem given_prefix {a b : Trace} (h : a <+: b) : given a <+: given b := (h.filterMap _).map _

end Trace

/-- A launch as a command. -/
def Launch.command (l : Launch) : Command := .launch l.offerId l.task

/-- A command as a launch, if it is one. -/
def Command.launch? : Command → Option Launch
  | .launch offer task => some ⟨offer, task⟩
  | .decline _ | .acknowledge _ | .stop => none

/-- The commands that carry out the answers to a batch. -/
def Dispatch.commands (a : Dispatch) : List Command :=
  a.launches.map Launch.command ++ if a.declined.isEmpty then [] else [.decline a.declined]

/-- The command that answers a report, if it asks for one. -/
def TaskStatus.commands (status : TaskStatus) : List Command :=
  if status.uuid.isNone then [] else [.acknowledge status]

theorem Dispatch.filterMap_launch?_commands (a : Dispatch) :
    a.commands.filterMap Command.launch? = a.launches := by
  rw [commands, List.filterMap_append, List.filterMap_map]
  have hself : Command.launch? ∘ Launch.command = some := rfl
  rw [hself, List.filterMap_some]
  split
  · exact List.append_nil _
  · exact List.append_nil _

theorem TaskStatus.filterMap_launch?_commands (status : TaskStatus) :
    status.commands.filterMap Command.launch? = [] := by
  rw [commands]
  split <;> rfl

namespace Scheduler

/-- The commands that a scheduler replies to an event with. -/
def reply (d : Dispatcher) (s : Scheduler) : Event → List Command
  | .offers batch => (s.handleOffers d batch).2.commands
  | .status status => status.commands
  | .registered _ | .rescinded _ | .error _ => []

/-- The commands that a scheduler replies to events with. -/
def replies (d : Dispatcher) (s : Scheduler) : List (Nat × Event) → List Command
  | [] => []
  | (_, e) :: rest => s.reply d e ++ replies d (after d s e.input?.toList) rest

/-- The events up to the one after which a scheduler is done. -/
def handled (d : Dispatcher) (s : Scheduler) : List (Nat × Event) → List (Nat × Event)
  | [] => []
  | (arrival, e) :: rest =>
    if (after d s e.input?.toList).done then [(arrival, e)]
    else (arrival, e) :: handled d (after d s e.input?.toList) rest

variable {d : Dispatcher} {s : Scheduler}

theorem handled_cons_of_done {e : Event} (h : (after d s e.input?.toList).done = true)
    (arrival : Nat) (rest : List (Nat × Event)) :
    handled d s ((arrival, e) :: rest) = [(arrival, e)] := if_pos h

theorem handled_cons_of_not_done {e : Event} (h : (after d s e.input?.toList).done = false)
    (arrival : Nat) (rest : List (Nat × Event)) : handled d s ((arrival, e) :: rest)
      = (arrival, e) :: handled d (after d s e.input?.toList) rest :=
  if_neg (Bool.eq_false_iff.1 h)

/-- No reply is a stop. -/
theorem stop_notMem_reply (s : Scheduler) (e : Event) : .stop ∉ s.reply d e := by
  cases e with
  | offers batch =>
    rw [reply, Dispatch.commands, List.mem_append, not_or]
    constructor
    · intro h
      obtain ⟨l, -, hl⟩ := List.mem_map.1 h
      cases hl
    · split <;> simp
  | status status =>
    rw [reply, TaskStatus.commands]
    split <;> simp
  | registered _ | rescinded _ | error _ => exact List.not_mem_nil

theorem stop_notMem_replies (s : Scheduler) (events : List (Nat × Event)) :
    .stop ∉ s.replies d events := by
  induction events generalizing s with
  | nil => exact List.not_mem_nil
  | cons first rest ih =>
    rw [replies, List.mem_append, not_or]
    exact ⟨stop_notMem_reply s first.2, ih _⟩

/-- The launches among the replies are those that the inputs lead to. -/
theorem filterMap_launch?_replies (s : Scheduler) (events : List (Nat × Event)) :
    (s.replies d events).filterMap Command.launch? = launches d s (Event.inputs events) := by
  induction events generalizing s with
  | nil => rfl
  | cons first rest ih =>
    obtain ⟨arrival, e⟩ := first
    rw [replies, List.filterMap_append, ih]
    cases e with
    | offers batch => rw [reply, Dispatch.filterMap_launch?_commands]; rfl
    | status status => rw [reply, TaskStatus.filterMap_launch?_commands]; rfl
    | registered _ | rescinded _ | error _ => rfl

theorem handled_isPrefix (s : Scheduler) (events : List (Nat × Event)) :
    handled d s events <+: events := by
  induction events generalizing s with
  | nil => exact List.nil_prefix
  | cons first rest ih =>
    rw [handled]
    split
    · exact (List.prefix_cons_inj _).2 List.nil_prefix
    · exact (List.prefix_cons_inj _).2 (ih _)

/-- Nothing is handled after the end. -/
theorem not_done_of_prefix_handled (hdone : s.done = false) {events before : List (Nat × Event)}
    (h : before <+: handled d s events) (hne : before ≠ handled d s events) :
    (after d s (Event.inputs before)).done = false := by
  induction events generalizing s before with
  | nil => exact absurd (List.prefix_nil.1 h) hne
  | cons first rest ih =>
    cases before with
    | nil => exact hdone
    | cons head before =>
      rw [handled] at h hne
      rw [Event.inputs_cons, after_append]
      split at h
      · next hnow =>
        obtain ⟨rfl, htail⟩ := List.cons_prefix_cons.1 h
        rw [if_pos hnow, List.prefix_nil.1 htail] at hne
        exact absurd rfl hne
      · next hnow =>
        obtain ⟨rfl, htail⟩ := List.cons_prefix_cons.1 h
        rw [if_neg hnow] at hne
        exact ih (Bool.eq_false_of_not_eq_true hnow) htail fun heq => hne (congrArg _ heq)

/-- As long as a scheduler is not done, all events are handled. -/
theorem handled_eq_self {events : List (Nat × Event)}
    (h : (after d s (Event.inputs (handled d s events))).done = false) :
    handled d s events = events := by
  induction events generalizing s with
  | nil => rfl
  | cons first rest ih =>
    rw [handled] at h ⊢
    split at h
    · next hnow =>
      rw [Event.inputs_cons, after_append, after_of_done hnow, hnow] at h
      cases h
    · next hnow =>
      rw [Event.inputs_cons, after_append] at h
      rw [if_neg hnow, ih h]

end Scheduler

namespace Run

variable {m : Manager σ} {d : Dispatcher} {s s' s'' : Run σ}

/-! ### Deeds -/

/-- One thing that a run does in answer to an event, with the commands it gives by that. -/
inductive Deed (m : Manager σ) (s : Run σ) : Run σ → Trace → List Command → Prop where
  | note (e : Entry) : Deed m s s [(s.clock, .note e)] []
  /-- A launch waits for the pacer first. -/
  | launch (l : Launch) : Deed m s
      { s with
        clock := s.pacer.due s.clock
        pacer := (s.pacer.ready s.clock).2
        manager := (m.perform l.command s.manager).2 }
      [(s.pacer.due s.clock, .command l.command s.published)] [l.command]
  | give (c : Command) (other : c.launch? = none) : Deed m s
      { s with manager := (m.perform c s.manager).2 } [(s.clock, .command c s.published)] [c]

/-- Some deeds, one after the other. -/
inductive Deeds (m : Manager σ) : Run σ → Run σ → Trace → List Command → Prop where
  | nil (s : Run σ) : Deeds m s s [] []
  | cons {s s' s'' : Run σ} {t t' : Trace} {cs cs' : List Command} (first : Deed m s s' t cs)
      (rest : Deeds m s' s'' t' cs') : Deeds m s s'' (t ++ t') (cs ++ cs')

theorem Deeds.trans {t t' : Trace} {cs cs' : List Command} (h : Deeds m s s' t cs)
    (h' : Deeds m s' s'' t' cs') : Deeds m s s'' (t ++ t') (cs ++ cs') := by
  induction h with
  | nil => exact h'
  | cons first rest ih =>
    rw [List.append_assoc, List.append_assoc]
    exact .cons first (ih h')

/-- What a command comes to: after it has been given, its failure is noted. -/
theorem Deeds.noted {t : Trace} {cs : List Command} (h : Deed m s s' t cs)
    (answer : Except CommandError Unit) (onError : CommandError → Entry) :
    Deeds m s s' (t ++ match answer with
      | .ok () => []
      | .error e => [(s'.clock, .note (onError e))]) cs := by
  have hnote (t' : Trace) (hd : Deeds m s' s' t' []) : Deeds m s s' (t ++ t') cs := by
    have hboth := Deeds.cons h hd
    rwa [List.append_nil] at hboth
  cases answer with
  | ok _ => exact hnote [] (.nil s')
  | error e => exact hnote _ (.cons (.note (onError e)) (.nil s'))

theorem deeds_command (m : Manager σ) (c : Command) (other : c.launch? = none)
    (onError : CommandError → Entry) (s : Run σ) :
    Deeds m s (command m c onError s).1 (command m c onError s).2 [c] :=
  .noted (.give c other) (m.perform c s.manager).1 onError

theorem deeds_launch (m : Manager σ) (s : Run σ) (l : Launch) :
    Deeds m s (launch m s l).1 (launch m s l).2 [l.command] :=
  .noted (.launch l) (m.perform l.command s.manager).1 (launchFailedEntry l)

theorem deeds_launchAll (m : Manager σ) (s : Run σ) (ls : List Launch) :
    Deeds m s (launchAll m s ls).1 (launchAll m s ls).2 (ls.map Launch.command) := by
  induction ls generalizing s with
  | nil => exact .nil s
  | cons l rest ih => exact (deeds_launch m s l).trans (ih (launch m s l).1)

theorem deeds_decline (m : Manager σ) (ids : List OfferId) (s : Run σ) :
    Deeds m s (decline m ids s).1 (decline m ids s).2
      (if ids.isEmpty then [] else [.decline ids]) := by
  rw [decline]
  split
  · exact .nil s
  · exact deeds_command m (.decline ids) rfl _ s

theorem deeds_acknowledge (m : Manager σ) (status : TaskStatus) (s : Run σ) :
    Deeds m s (acknowledge m status s).1 (acknowledge m status s).2 status.commands := by
  rw [acknowledge, TaskStatus.commands]
  split
  · exact .nil s
  · exact deeds_command m (.acknowledge status) rfl _ s

theorem deeds_notes (m : Manager σ) (s : Run σ) (entries : List Entry) :
    Deeds m s s (entries.map fun e => (s.clock, Act.note e)) [] := by
  induction entries with
  | nil => exact .nil s
  | cons e rest ih => exact .cons (.note e) ih

theorem deeds_handleOffers (m : Manager σ) (d : Dispatcher) (batch : List Offer) (s : Run σ) :
    Deeds m { s with scheduler := (s.scheduler.handleOffers d batch).1 }
      (handleOffers m d batch s).1 (handleOffers m d batch s).2
      (s.scheduler.handleOffers d batch).2.commands :=
  (deeds_launchAll m _ _).trans (deeds_decline m _ _)

theorem deeds_handleStatus (m : Manager σ) (status : TaskStatus) (s : Run σ) :
    Deeds m { s with scheduler := (s.scheduler.handleStatus status).1 }
      (handleStatus m status s).1 (handleStatus m status s).2.1 status.commands :=
  (deeds_notes m _ _).trans (deeds_acknowledge m status _)

/-- An event brings the scheduler forward, and what is done then gives the commands of the reply. -/
theorem deeds_react (m : Manager σ) (d : Dispatcher) (s : Run σ) (e : Event) :
    Deeds m { s with scheduler := Scheduler.after d s.scheduler e.input?.toList }
      (react m d s e).1 (react m d s e).2.1 (s.scheduler.reply d e) := by
  cases e with
  | offers batch => exact deeds_handleOffers m d batch s
  | status status => exact deeds_handleStatus m status s
  | error message => exact deeds_notes m s [managerErrorEntry message]
  | registered _ | rescinded _ => exact .nil s

/-! ### Giving commands -/

/-- From one state of a run to the other some commands were given, and all that happened besides was
noting, publishing and waiting. -/
structure Gives (m : Manager σ) (s s' : Run σ) (t : Trace) (cs : List Command) : Prop where
  scheduler : s'.scheduler = s.scheduler
  interval : s'.pacer.interval = s.pacer.interval
  given : t.given = cs
  manager : s'.manager = m.after s.manager cs

theorem Gives.trans {t t' : Trace} {cs cs' : List Command} (h : Gives m s s' t cs)
    (h' : Gives m s' s'' t' cs') : Gives m s s'' (t ++ t') (cs ++ cs') where
  scheduler := h'.scheduler.trans h.scheduler
  interval := h'.interval.trans h.interval
  given := by rw [Trace.given_append, h.given, h'.given]
  manager := by rw [h'.manager, h.manager, Manager.after_append]

/-- A command is given once, whatever the manager answers, and waiting for the pacer takes time and
nothing else. -/
theorem gives_of_deed {t : Trace} {cs : List Command} (h : Deed m s s' t cs) :
    Gives m s s' t cs := by
  cases h with
  | note | launch | give => exact ⟨rfl, rfl, rfl, rfl⟩

theorem gives_of_deeds {t : Trace} {cs : List Command} (h : Deeds m s s' t cs) :
    Gives m s s' t cs := by
  induction h with
  | nil => exact ⟨rfl, rfl, rfl, rfl⟩
  | cons first _ ih => exact (gives_of_deed first).trans ih

theorem gives_publish (m : Manager σ) (s : Run σ) :
    Gives m s (publish s).1 (publish s).2 [] := by
  simp only [publish]
  split <;> exact ⟨rfl, rfl, rfl, rfl⟩

theorem gives_stop (m : Manager σ) (s : Run σ) :
    Gives m s (stop m s).1 (stop m s).2.1 [.stop] := ⟨rfl, rfl, rfl, rfl⟩

/-- A run that stopped hands on what the manager answered. -/
theorem stop_ending (m : Manager σ) (s : Run σ) : (stop m s).2.2 =
    (m.perform .stop s.manager).1.map fun _ => .completed s.scheduler.registry.knownCount := by
  simp only [stop]
  cases (m.perform .stop s.manager).1 <;> rfl

/-! ### Events -/

/-- Only a report can end a run, and it does so when it makes the scheduler done. -/
theorem react_eq_terminate_iff (h : s.scheduler.done = false) (m : Manager σ) (e : Event) :
    (react m d s e).2.2 = .terminate ↔
      (Scheduler.after d s.scheduler e.input?.toList).done = true := by
  cases e with
  | status status => exact Scheduler.handleStatus_eq_terminate_iff s.scheduler status
  | offers batch =>
    have hstill : (s.scheduler.handleOffers d batch).1.done = false := by
      rw [Scheduler.handleOffers_of_not_done h]
    exact iff_of_false Decision.noConfusion (Bool.eq_false_iff.1 hstill)
  | registered _ | rescinded _ | error _ =>
    exact iff_of_false Decision.noConfusion (Bool.eq_false_iff.1 h)

/-- An event and the progress shown after it give the commands of the reply. -/
theorem gives_react_publish (m : Manager σ) (d : Dispatcher) (s : Run σ) (arrival : Nat)
    (e : Event) :
    let r := react m d { s with clock := max s.clock arrival } e
    Gives m { s with scheduler := Scheduler.after d s.scheduler e.input?.toList }
      (publish r.1).1 (r.2.1 ++ (publish r.1).2) (s.scheduler.reply d e) := by
  intro r
  have hreact := deeds_react m d { s with clock := max s.clock arrival } e
  have hboth := (gives_of_deeds hreact).trans (gives_publish m r.1)
  rw [List.append_nil] at hboth
  exact ⟨hboth.scheduler, hboth.interval, hboth.given, hboth.manager⟩

/-- While the scheduler is not done, a run goes on. -/
theorem handle_of_not_done {e : Event} (h : s.scheduler.done = false)
    (hnext : (Scheduler.after d s.scheduler e.input?.toList).done = false) (m : Manager σ)
    (arrival : Nat) : ∃ s' t, handle m d s arrival e = (s', t, none) ∧
      Gives m { s with scheduler := Scheduler.after d s.scheduler e.input?.toList } s' t
        (s.scheduler.reply d e) := by
  have hend := react_eq_terminate_iff (d := d) (s := { s with clock := max s.clock arrival }) h m e
  have hproceed : (react m d { s with clock := max s.clock arrival } e).2.2 = .proceed := by
    cases hd : (react m d { s with clock := max s.clock arrival } e).2.2 with
    | proceed => rfl
    | terminate => exact absurd (hend.1 hd) (Bool.eq_false_iff.1 hnext)
  refine ⟨_, _, ?_, gives_react_publish m d s arrival e⟩
  simp only [handle, hproceed, conclude]

/-- The event that makes the scheduler done ends a run, with a stop behind all that it gives. -/
theorem handle_of_done {e : Event} (h : s.scheduler.done = false)
    (hnext : (Scheduler.after d s.scheduler e.input?.toList).done = true) (m : Manager σ)
    (arrival : Nat) : ∃ s' t, handle m d s arrival e = (s', t,
        some ((m.perform .stop (m.after s.manager (s.scheduler.reply d e))).1.map fun _ =>
          .completed (Scheduler.after d s.scheduler e.input?.toList).registry.knownCount)) ∧
      Gives m { s with scheduler := Scheduler.after d s.scheduler e.input?.toList } s' t
        (s.scheduler.reply d e ++ [.stop]) := by
  have hend := react_eq_terminate_iff (d := d) (s := { s with clock := max s.clock arrival }) h m e
  have hterminate := hend.2 hnext
  have hgives := gives_react_publish m d s arrival e
  refine ⟨_, _, ?_, hgives.trans (gives_stop m _)⟩
  simp only [handle, hterminate, conclude]
  rw [stop_ending, hgives.manager, hgives.scheduler]

/-! ### Whole runs -/

/-- What is to be reported of events by a run that starts from `s`. -/
structure Follows (m : Manager σ) (d : Dispatcher) (s : Run σ) (events : List (Nat × Event))
    (report : Report σ) : Prop where
  unread : events = s.scheduler.handled d events ++ report.unread
  scheduler : report.final.scheduler =
    Scheduler.after d s.scheduler (Event.inputs (s.scheduler.handled d events))
  given : report.trace.given = s.scheduler.replies d (s.scheduler.handled d events) ++
    if report.final.scheduler.done then [.stop] else []
  ending : report.ending =
    if report.final.scheduler.done then
      (m.perform .stop
          (m.after s.manager (s.scheduler.replies d (s.scheduler.handled d events)))).1.map
        fun _ => .completed report.final.scheduler.registry.knownCount
    else .ok (.disconnected report.final.scheduler.progress)

theorem follows_disconnect (h : s.scheduler.done = false) (m : Manager σ) (closing : Nat) :
    Follows m d s [] (follow m d closing s []) := by
  have hopen : ¬s.scheduler.done = true := Bool.eq_false_iff.1 h
  constructor
  · rfl
  · rfl
  · rw [follow, disconnect, if_neg hopen]
    rfl
  · rw [follow, disconnect, if_neg hopen]

/-- A run that ends with an event leaves all later ones. -/
theorem follows_of_done {arrival : Nat} {e : Event} {t : Trace}
    (hnext : (Scheduler.after d s.scheduler e.input?.toList).done = true)
    (h : Gives m { s with scheduler := Scheduler.after d s.scheduler e.input?.toList } s' t
      (s.scheduler.reply d e ++ [.stop])) (rest : List (Nat × Event)) :
    Follows m d s ((arrival, e) :: rest) ⟨s', t,
      (m.perform .stop (m.after s.manager (s.scheduler.reply d e))).1.map fun _ =>
        .completed (Scheduler.after d s.scheduler e.input?.toList).registry.knownCount, rest⟩ := by
  have hhandled := Scheduler.handled_cons_of_done hnext arrival rest
  have hreplies : s.scheduler.replies d [(arrival, e)] = s.scheduler.reply d e := List.append_nil _
  have hdone : s'.scheduler.done = true := (congrArg Scheduler.done h.scheduler).trans hnext
  constructor
  · rw [hhandled]
    rfl
  · rw [hhandled, Event.inputs_cons, Scheduler.after_append]
    exact h.scheduler
  · rw [hhandled, hreplies, if_pos hdone]
    exact h.given
  · rw [hhandled, hreplies, if_pos hdone, h.scheduler]

/-- A run that goes on after an event reports what the rest makes of it. -/
theorem Follows.cons {arrival : Nat} {e : Event} {t : Trace} {rest : List (Nat × Event)}
    {report : Report σ} (hnext : (Scheduler.after d s.scheduler e.input?.toList).done = false)
    (h : Gives m { s with scheduler := Scheduler.after d s.scheduler e.input?.toList } s' t
      (s.scheduler.reply d e)) (hrest : Follows m d s' rest report) :
    Follows m d s ((arrival, e) :: rest) { report with trace := t ++ report.trace } := by
  have hhandled : s.scheduler.handled d ((arrival, e) :: rest)
      = (arrival, e) :: s'.scheduler.handled d rest := by
    rw [h.scheduler]
    exact Scheduler.handled_cons_of_not_done hnext arrival rest
  have hreplies (more : List (Nat × Event)) : s.scheduler.replies d ((arrival, e) :: more)
      = s.scheduler.reply d e ++ s'.scheduler.replies d more := by
    rw [h.scheduler]
    rfl
  have hmanager : s'.manager = m.after s.manager (s.scheduler.reply d e) := h.manager
  constructor
  · rw [hhandled, List.cons_append, ← hrest.unread]
  · rw [hhandled, Event.inputs_cons, Scheduler.after_append]
    exact h.scheduler ▸ hrest.scheduler
  · rw [hhandled, hreplies, List.append_assoc, ← hrest.given, Trace.given_append, h.given]
  · rw [hhandled, hreplies, Manager.after_append, ← hmanager]
    exact hrest.ending

/-- A run follows the scheduler until that is done or there are no more events. -/
theorem follows_follow (h : s.scheduler.done = false) (m : Manager σ) (closing : Nat)
    (events : List (Nat × Event)) : Follows m d s events (follow m d closing s events) := by
  induction events generalizing s with
  | nil => exact follows_disconnect h m closing
  | cons first rest ih =>
    obtain ⟨arrival, e⟩ := first
    cases hnext : (Scheduler.after d s.scheduler e.input?.toList).done with
    | true =>
      obtain ⟨s', t, heq, hgives⟩ := handle_of_done h hnext m arrival
      rw [follow, heq]
      exact follows_of_done hnext hgives rest
    | false =>
      obtain ⟨s', t, heq, hgives⟩ := handle_of_not_done h hnext m arrival
      have hstill := (congrArg Scheduler.done hgives.scheduler).trans hnext
      rw [follow, heq]
      exact (ih hstill).cons hnext hgives

/-- Nothing is asked of the manager after a stop. -/
theorem Follows.nil_of_stop {events : List (Nat × Event)} {report : Report σ}
    (h : Follows m d s events report) {before later : List Command}
    (hgiven : report.trace.given = before ++ .stop :: later) : later = [] := by
  have hnone : Command.stop ∉ s.scheduler.replies d (s.scheduler.handled d events) :=
    Scheduler.stop_notMem_replies _ _
  have hreplies := h.given.symm.trans hgiven
  split at hreplies
  · exact ((List.append_cons_inj_of_notMem hnone List.not_mem_nil).1 hreplies).2.2.symm
  · rw [List.append_nil] at hreplies
    rw [hreplies] at hnone
    exact absurd (List.mem_append_right _ List.mem_cons_self) hnone

/-- The manager has carried out the commands of the trace. -/
theorem manager_follow (h : s.scheduler.done = false) (m : Manager σ) (closing : Nat)
    (events : List (Nat × Event)) : (follow m d closing s events).final.manager =
      m.after s.manager (follow m d closing s events).trace.given := by
  induction events generalizing s with
  | nil => rfl
  | cons first rest ih =>
    obtain ⟨arrival, e⟩ := first
    cases hnext : (Scheduler.after d s.scheduler e.input?.toList).done with
    | true =>
      obtain ⟨s', t, heq, hgives⟩ := handle_of_done h hnext m arrival
      rw [follow, heq]
      exact hgives.given ▸ hgives.manager
    | false =>
      obtain ⟨s', t, heq, hgives⟩ := handle_of_not_done h hnext m arrival
      have hstill := (congrArg Scheduler.done hgives.scheduler).trans hnext
      have hmanager : s'.manager = m.after s.manager t.given := hgives.given ▸ hgives.manager
      rw [follow, heq]
      dsimp only
      rw [Trace.given_append, Manager.after_append, ih hstill, hmanager]

end Run

end Rollout
