import Rollout.Install
import Rollout.Json.Printer
import Rollout.Proofs.Bodies
import Rollout.Proofs.Calls
import Rollout.Proofs.Frame
import Rollout.Proofs.Provenance

/-!
What it takes for an installation to succeed.

An installation reports success only after a whole chain of things: the master granted the
subscription, each host that it offered had one task launched on its first offer, a report came
later that this very task had finished, and the master agreed to the teardown, which is the last
request of all. The chain is followed from the result back to the answers of the master, and forth
to the bodies that were posted. A run that breaks off has no result, so that one with a result is a
run on a clock without an end.
-/
namespace Rollout

/-- The offers of an event. -/
def Event.batch : Event → List Offer
  | .offers batch => batch
  | .registered _ | .status _ | .rescinded _ | .error _ => []

/-- The offers of some events, in their order. -/
def Event.offered (events : List Event) : List Offer := events.flatMap batch

theorem Event.offered_inputs (events : List (Nat × Event)) :
    Input.offered (inputs events) = offered (events.map (·.2)) := by
  induction events with
  | nil => rfl
  | cons first rest ih =>
    obtain ⟨arrival, e⟩ := first
    have hfirst : Input.offered e.input?.toList = e.batch := by
      cases e with
      | offers batch => exact (Input.offered_cons_offers batch []).trans (List.append_nil _)
      | registered | status | rescinded | error => rfl
    rw [inputs_cons, Input.offered_append, ih, hfirst]
    rfl

/-- What a launch accepts. -/
def Launch.acceptance (l : Launch) : Master.Call.Acceptance :=
  ⟨l.offerId, l.task.agentId, l.task.id⟩

namespace Master

/-- The launch that a request accepts an offer with. -/
def Request.launch? (q : Request) : Option Launch :=
  match q.call with
  | .accept _ offer task _ => some ⟨offer, task⟩
  | .subscribe _ | .decline .. | .acknowledge .. | .teardown _ => none

/-- The body of a request accepts what the request is for, and has another type if that is no
launch. -/
theorem Request.acceptanceIn?_toJson (q : Request) :
    Call.acceptanceIn? q.call.toJson = q.launch?.map Launch.acceptance ∧
      (q.launch? = none → q.call.toJson.get? "type" ≠ some (.str "ACCEPT")) := by
  obtain ⟨endpoint, stream, call⟩ := q
  rw [Ne, Call.get?_type_iff]
  cases call with
  | accept => exact ⟨rfl, nofun⟩
  | subscribe | decline | acknowledge | teardown => exact ⟨rfl, fun _ => by simp [Call.type]⟩

/-- The launches that requests ask for, in their order. -/
def launched (requests : List Request) : List Launch := requests.filterMap Request.launch?

namespace Session

variable {s : Session} {answers : Answers}

theorem launched_requests (s : Session) (cs : List Command) :
    launched (cs.flatMap s.requests) = cs.filterMap Command.launch? := by
  rw [launched, List.filterMap_flatMap, List.filterMap_eq_flatMap_toList]
  congr 1
  funext c
  cases c with
  | launch | decline | stop => rfl
  | acknowledge status =>
    simp only [requests]
    cases status.agentId <;> cases status.uuid <;> rfl

/-- Only a stop posts a teardown. -/
theorem eq_stop_of_teardown {c : Command} {q : Request} (hq : q ∈ s.requests c)
    (h : q.call.toJson.get? "type" = some (.str "TEARDOWN")) : c = .stop := by
  rw [Call.get?_type_iff] at h
  cases c with
  | stop => rfl
  | launch | decline =>
    cases List.mem_singleton.1 hq
    simp [request, Call.type] at h
  | acknowledge status =>
    simp only [requests] at hq
    split at hq
    · cases List.mem_singleton.1 hq
      simp [request, Call.type] at h
    · cases hq

/-- A command comes to nothing but success only with an answer that accepts it. -/
theorem resultOf_eq_ok_iff {answer : Option Response} : resultOf answer = .ok () ↔
    ∃ response, answer = some response ∧ response.code = acceptedCode := by
  cases answer with
  | none => simp [resultOf]
  | some response =>
    rw [resultOf]
    split <;> simp_all

/-- The requests of some turns. -/
def requestsOf (s : Session) (turns : List TimedTurn) : List Request :=
  (TimedTurn.given turns).flatMap s.requests

end Session

end Master

namespace Installation

open Master

variable {master : String} {c : Config} {d : Dispatcher} {other : Counterpart} {plan : Plan}
  {session : Session} {answers : Answers} {events : List Event}

/-- The run on a clock without an end. -/
def endless (plan : Plan) (d : Dispatcher) (s : Session) (answers : Answers)
    (events : List Event) : Run.Report Line :=
  Run.follow (s.manager answers) d 0 (.initial plan.interval.millis .initial) (events.map (0, ·))

/-- The turns of the run. -/
def turns (plan : Plan) (d : Dispatcher) (s : Session) (answers : Answers) (events : List Event) :
    List TimedTurn :=
  Run.timedTurns (s.manager answers) d (.initial plan.interval.millis .initial)
    (events.map (0, ·))

theorem master_of_ofConfig (h : Plan.ofConfig master c = .ok plan) :
    plan.registration.master = master := by
  rw [Plan.ofConfig] at h
  cases hi : c.launchInterval with
  | error e => rw [hi] at h; cases h
  | ok interval =>
    cases ht : c.stallTimeout with
    | error e => rw [hi, ht] at h; cases h
    | ok timeout => rw [hi, ht] at h; cases h; rfl

theorem ofConfig_of_error {e : ConfigError} (h : Plan.ofConfig master c = .error e) :
    ofConfig master c d other = failed [] (.config e) := by
  unfold ofConfig
  rw [h]

theorem ofConfig_of_plan (h : Plan.ofConfig master c = .ok plan) :
    ofConfig master c d other = ofPlan plan d other := by
  unfold ofConfig
  rw [h]

/-- A subscription that is granted leads to a run. -/
theorem ofPlan_of_granted {endpoint : Uri} {feed : Feed}
    (hendpoint : endpointOf plan.registration.master = .ok endpoint)
    (hgranted : Session.subscribe plan.registration other.subscription = .ok (session, feed)) :
    let course := run plan d session other feed.events
    ofPlan plan d other = ⟨plan.registration.request endpoint :: course.final.manager.posted,
      course.trace, watched plan course, course.close.map resultOf⟩ := by
  intro course
  rw [ofPlan, hendpoint, hgranted]
  rfl

theorem exists_granted {outcome : Outcome} (h : (ofPlan plan d other).result = some (.ok outcome)) :
    ∃ endpoint session feed, endpointOf plan.registration.master = .ok endpoint ∧
      Session.subscribe plan.registration other.subscription = .ok (session, feed) := by
  cases hgranted : Session.subscribe plan.registration other.subscription with
  | error e =>
    rw [ofPlan, hgranted] at h
    cases h
  | ok granted =>
    obtain ⟨endpoint, _, hendpoint, -, -⟩ := Session.subscribe_eq_ok_iff.1 hgranted
    exact ⟨endpoint, granted.1, granted.2, hendpoint, rfl⟩

theorem close_of_resultOf {close : Run.Close} {outcome : Outcome}
    (h : close.map resultOf = some (.ok outcome)) : close = some (.ok outcome) := by
  obtain ⟨ending, rfl, hresult⟩ := Option.map_eq_some_iff.1 h
  cases ending with
  | error e => cases hresult
  | ok o => cases hresult; rfl

/-- A result other than an error comes from a run, which has not broken off. -/
theorem exists_run {outcome : Outcome}
    (h : (ofConfig master c d other).result = some (.ok outcome)) :
    ∃ plan endpoint session feed,
      Plan.ofConfig master c = .ok plan ∧ endpointOf master = .ok endpoint ∧
      Session.subscribe plan.registration other.subscription = .ok (session, feed) ∧
      (endless plan d session other.answers feed.events).ending = .ok outcome ∧
      (ofConfig master c d other).requests = plan.registration.request endpoint ::
        (endless plan d session other.answers feed.events).final.manager.posted := by
  cases hplan : Plan.ofConfig master c with
  | error e =>
    rw [ofConfig_of_error hplan] at h
    cases h
  | ok plan =>
    have hmaster := master_of_ofConfig hplan
    rw [ofConfig_of_plan hplan] at h ⊢
    obtain ⟨endpoint, session, feed, hendpoint, hgranted⟩ := exists_granted h
    rw [ofPlan_of_granted hendpoint hgranted] at h ⊢
    obtain ⟨hcourse, hending⟩ := Run.followUntil_of_close (close_of_resultOf h)
    have hrun : run plan d session other feed.events = _ := hcourse
    rw [hmaster] at hendpoint
    refine ⟨plan, endpoint, session, feed, rfl, hendpoint, hgranted, hending, ?_⟩
    rw [hrun]
    rfl

/-- A run that completes has stopped its session last, and the master agreed. -/
theorem torn_down {n : Nat}
    (h : (endless plan d session answers events).ending = .ok (.completed n)) :
    let report := endless plan d session answers events
    report.final.scheduler.done = true ∧ n = report.final.scheduler.registry.knownCount ∧
    ∃ log response, .stop ∉ log ∧ report.trace.given = log ++ [.stop] ∧
      report.final.manager.posted = report.trace.given.flatMap session.requests ∧
      answers (log.flatMap session.requests).length = some response ∧
      response.code = acceptedCode := by
  intro report
  let start : Run Line := .initial plan.interval.millis .initial
  let log := start.scheduler.replies d (start.scheduler.handled d (events.map (0, ·)))
  have hf : Run.Follows (session.manager answers) d start (events.map (0, ·)) report :=
    Run.follows_follow rfl _ 0 _
  have hlog : .stop ∉ log := Scheduler.stop_notMem_replies _ _
  have hgiven := hf.given
  have hending := h.symm.trans hf.ending
  cases hdone : report.final.scheduler.done with
  | false =>
    rw [hdone] at hending
    cases hending
  | true =>
    rw [hdone, if_pos rfl] at hgiven hending
    change _ = ((session.manager answers).perform .stop
      ((session.manager answers).after .initial log)).1.map _ at hending
    rw [Session.perform_first_stop hlog] at hending
    have hmanager : report.final.manager
        = (session.manager answers).after .initial report.trace.given :=
      Run.manager_follow rfl _ 0 _
    cases hresult : Session.resultOf (answers (log.flatMap session.requests).length) with
    | error e =>
      rw [hresult] at hending
      cases hending
    | ok =>
      rw [hresult] at hending
      cases hending
      obtain ⟨response, hanswer, hcode⟩ := Session.resultOf_eq_ok_iff.1 hresult
      refine ⟨rfl, rfl, log, response, hlog, hgiven, ?_, hanswer, hcode⟩
      rw [hmanager, hgiven, Session.after_first_stop hlog, List.flatMap_append]
      rfl

/-- What a run that completes has handled: everything up to the report that decides. -/
theorem exists_deciding {n : Nat}
    (h : (endless plan d session answers events).ending = .ok (.completed n)) :
    let handled := Scheduler.handled d .initial (events.map (0, ·))
    (Scheduler.after d .initial (Event.inputs handled)).done = true ∧
    ∃ before deciding unread, events = before ++ .status deciding :: unread ∧
      (turns plan d session answers events).map (·.event) = before ++ [.status deciding] ∧
      Input.offered (Event.inputs handled) = Event.offered before ∧
      n = ((Event.offered before).map (·.hostname)).toFinset.card ∧ 1 ≤ n := by
  intro handled
  let start : Run Line := .initial plan.interval.millis .initial
  let report := endless plan d session answers events
  have hf : Run.Follows (session.manager answers) d start (events.map (0, ·)) report :=
    Run.follows_follow rfl _ 0 _
  obtain ⟨hdone, hn, -⟩ := torn_down h
  have hs : Scheduler.Sound d report.final.scheduler := by
    rw [hf.scheduler]
    exact Scheduler.sound_after Scheduler.sound_initial _
  have hpos := (hs.latch.1 hdone).1
  have hhandled : (Scheduler.after d .initial (Event.inputs handled)).done = true :=
    hf.scheduler ▸ hdone
  have hunread : events.map (0, ·) = handled ++ report.unread := hf.unread
  have hturns : handled ++ report.unread = (turns plan d session answers events).map
      (fun t => (t.arrival, t.event)) ++ report.unread :=
    hunread.symm.trans (Run.unread_eq (session.manager answers) d 0 start (events.map (0, ·)))
  obtain ⟨before, arrival, deciding, hfound, -⟩ := Scheduler.exists_deciding rfl hhandled
  have hlast : handled = before ++ [(arrival, .status deciding)] := hfound
  have hoffered : Input.offered (Event.inputs handled) = Event.offered (before.map (·.2)) := by
    rw [hlast, Event.inputs_append, Input.offered_append, Event.offered_inputs]
    exact List.append_nil _
  refine ⟨hhandled, before.map (·.2), deciding, report.unread.map (·.2), ?_, ?_, hoffered, ?_, ?_⟩
  · have hmap := congrArg (List.map (·.2)) hunread
    rw [hlast] at hmap
    simpa [Function.comp_def] using hmap
  · have hmap := congrArg (List.map (·.2)) (List.append_cancel_right hturns)
    rw [hlast] at hmap
    simpa [Function.comp_def] using hmap.symm
  · rw [hn, hf.scheduler]
    refine (Scheduler.knownCount_eq_card (Scheduler.admitted_handled d _)).trans ?_
    rw [Scheduler.hosts]
    exact congrArg (fun os => (os.map (·.hostname)).toFinset.card) hoffered
  · exact hn ▸ hpos

/-- If an installation says that so many hosts completed, then these are the hosts that the master
offered before the report that decided this, and there is one at least. For each of them one offer
was accepted, the first one that was ever received, by its identifier and with its agent; and the
turn of this request came before the turn of a report that the very task in it has finished. No
offer of another host was accepted. The last request is the only teardown, and its answer accepts
it. All this is to be found in the bodies that were posted. Nothing is assumed of the master, nor of
the identifiers of tasks. -/
theorem completed_hosts_installed (master : String) (c : Config) (d : Dispatcher)
    (other : Counterpart) (n : Nat)
    (completed : (ofConfig master c d other).result = some (.ok (.completed n))) :
    ∃ plan endpoint session feed,
      Plan.ofConfig master c = .ok plan ∧ endpointOf master = .ok endpoint ∧
      Session.subscribe plan.registration other.subscription = .ok (session, feed) ∧
      let turns := turns plan d session other.answers feed.events
      let requests := (ofConfig master c d other).requests
      requests = plan.registration.request endpoint :: session.requestsOf turns ∧
      (∀ q ∈ requests, Call.acceptanceIn? q.call.toJson = q.launch?.map Launch.acceptance ∧
        (q.launch? = none → q.call.toJson.get? "type" ≠ some (.str "ACCEPT"))) ∧
      ∃ before deciding unread,
        feed.events = before ++ .status deciding :: unread ∧
        turns.map (·.event) = before ++ [.status deciding] ∧
        n = ((Event.offered before).map (·.hostname)).toFinset.card ∧ 1 ≤ n ∧
        (∀ o ∈ Event.offered before, ∃ first l early t late report,
          (Event.offered feed.events).find? (·.hostname == o.hostname) = some first ∧
          (launched requests).filter (·.task.hostname == o.hostname) = [l] ∧
          l.acceptance = ⟨first.id, first.agentId, l.task.id⟩ ∧
          turns = early ++ t :: late ∧ l ∈ launched (session.requestsOf early) ∧
          t.event = .status report ∧ report.state = .finished ∧ report.taskId = l.task.id) ∧
        (∀ l ∈ launched requests, ∃ o ∈ Event.offered before, o.hostname = l.task.hostname) ∧
        ∃ log last response,
          session.requestsOf turns = log ++ [last] ∧
          last.call.toJson.get? "type" = some (.str "TEARDOWN") ∧
          last.call.toJson.get? "framework_id" = some (Call.idRecord session.framework) ∧
          (∀ q ∈ plan.registration.request endpoint :: log,
            q.call.toJson.get? "type" ≠ some (.str "TEARDOWN")) ∧
          other.answers log.length = some response ∧ response.code = acceptedCode := by
  obtain ⟨plan, endpoint, session, feed, hplan, hendpoint, hgranted, hending, hrequests⟩ :=
    exists_run completed
  refine ⟨plan, endpoint, session, feed, hplan, hendpoint, hgranted, ?_⟩
  intro turns requests
  let start : Run Line := .initial plan.interval.millis .initial
  have hstart : start.scheduler = .initial := rfl
  obtain ⟨hdone, before, deciding, unread, hevents, hturns, hoffered, hn, hpos⟩ :=
    exists_deciding hending
  obtain ⟨-, -, log, response, hlog, hgiven, hposted, hanswer, hcode⟩ := torn_down hending
  have hturnsGiven : TimedTurn.given turns = log ++ [.stop] :=
    (Run.given_timedTurns _ d 0 _ _).trans hgiven
  have hall : requests = plan.registration.request endpoint :: session.requestsOf turns := by
    rw [Session.requestsOf, hturnsGiven, ← hgiven, ← hposted]
    exact hrequests
  have hlaunched : launched requests = (TimedTurn.given turns).filterMap Command.launch? := by
    rw [hall, ← session.launched_requests]
    rfl
  refine ⟨hall, fun q _ => q.acceptanceIn?_toJson, before, deciding, unread, hevents, hturns, hn,
    hpos, fun o ho => ?_, fun l hl => ?_, log.flatMap session.requests,
    session.request (.teardown session.framework), response, ?_, rfl, rfl, fun q hq htype => ?_,
    hanswer, hcode⟩
  · obtain ⟨first, l, early, t, late, report, hfirst, hone, hid, hagent, hsplit, hearly, hrest⟩ :=
      Run.exists_finished_turn hstart (session.manager other.answers) hdone (hoffered.symm ▸ ho)
    have haccepted : l.acceptance = ⟨first.id, first.agentId, l.task.id⟩ := by
      rw [Launch.acceptance, hid, hagent]
    refine ⟨first, l, early, t, late, report, ?_, hlaunched ▸ hone, haccepted, hsplit, ?_, hrest⟩
    · rw [← hfirst, Event.offered_inputs, List.map_map]
      exact congrArg (List.find? _ <| Event.offered ·) (List.map_id _).symm
    · rw [Session.requestsOf, Session.launched_requests]
      exact hearly
  · rw [hlaunched] at hl
    have hmem : l ∈ Scheduler.launches d .initial _ :=
      Run.launches_timedTurns (s := start) rfl (session.manager other.answers) _ ▸ hl
    obtain ⟨-, o, ho, hhost⟩ := Scheduler.mem_launches hmem
    rw [← hoffered, ← Scheduler.admitted_handled]
    exact ⟨o, ho, hhost⟩
  · rw [Session.requestsOf, hturnsGiven, List.flatMap_append]
    rfl
  · rcases List.mem_cons.1 hq with rfl | hq
    · simp [Registration.request, Call.get?_type_iff, Call.type] at htype
    · obtain ⟨c, hc, hqc⟩ := List.mem_flatMap.1 hq
      exact hlog (Session.eq_stop_of_teardown hqc htype ▸ hc)

end Installation

namespace Sample

open Master

/-- A message of the master with one section. -/
def message (kind key : String) (members : List (String × Json)) : Text.Bytes :=
  (Json.render (.obj [("type", .str kind), (key, .obj members)])).toList.map (·.toNat.toUInt8)

/-- An offer in a message, by the agent `a`. -/
def offerRecord (id host : String) : Json :=
  .obj [("id", Call.idRecord id), ("agent_id", Call.idRecord "a"), ("hostname", .str host)]

/-- A master that offers one host twice, says that its task has finished, and answers nothing but
the subscription and the third call. -/
def counterpart : Counterpart where
  subscription := some ⟨okCode, [(streamHeader, [115])], [.data (Frame.frames [
    message "SUBSCRIBED" "subscribed" [("framework_id", Call.idRecord "f")],
    message "OFFERS" "offers" [("offers", .arr [offerRecord "o1" "h1", offerRecord "o2" "h1"])],
    message "UPDATE" "update" [("status", .obj [("task_id", Call.idRecord (dispatcher.taskId 0)),
      ("state", .str "TASK_FINISHED")])]])]⟩
  answers n := if n = 2 then some ⟨acceptedCode, [], []⟩ else none
  horizon := Wait.horizon

/-- An installation against that master. -/
def installation : Installation := .ofConfig "m" .default dispatcher counterpart

end Sample

namespace Installation

open Master

theorem evaluate_installation :
    (Sample.installation.result,
      Sample.installation.requests.map (·.launch?.map Launch.acceptance)) =
    (some (.ok (.completed 1)),
      [none, some ⟨"o1", "a", Sample.dispatcher.taskId 0⟩, none, none]) := by
  decide +kernel

/-- The accept and the decline are lost on the way to the master; the teardown is not. -/
theorem completed_hosts_installed_lost_calls :
    Sample.installation.result = some (.ok (.completed 1)) ∧
      (∃ host l, (launched Sample.installation.requests).filter (·.task.hostname == host) = [l]) ∧
      (∃ q ∈ Sample.installation.requests, Call.acceptanceIn? q.call.toJson =
        some ⟨"o1", "a", Sample.dispatcher.taskId 0⟩) ∧
      ∃ first log last, Sample.installation.requests = first :: (log ++ [last]) ∧
        last.call.toJson.get? "type" = some (.str "TEARDOWN") := by
  obtain ⟨hresult, hposted⟩ := Prod.mk.inj evaluate_installation
  obtain ⟨plan, endpoint, session, feed, -, -, -, hrequests, hbodies, before, deciding, unread, -,
    -, hn, -, hhosts, -, log, last, response, hlast, htype, -⟩ :=
    completed_hosts_installed "m" .default Sample.dispatcher Sample.counterpart 1 hresult
  obtain ⟨host, hhost⟩ := Finset.card_pos.1 (hn ▸ Nat.one_pos)
  obtain ⟨o, ho, rfl⟩ := List.mem_map.1 (List.mem_toFinset.1 hhost)
  obtain ⟨first, l, early, t, late, report, -, hone, -⟩ := hhosts o ho
  obtain ⟨q, hq, hlaunch⟩ : ∃ q ∈ Sample.installation.requests,
      q.launch?.map Launch.acceptance = some ⟨"o1", "a", Sample.dispatcher.taskId 0⟩ := by
    rw [← List.mem_map, hposted]
    exact List.mem_cons_of_mem _ List.mem_cons_self
  exact ⟨hresult, ⟨o.hostname, l, hone⟩, ⟨q, hq, (hbodies q hq).1.trans hlaunch⟩, _, log, last,
    hrequests.trans (congrArg _ hlast), htype⟩

end Installation

end Rollout
