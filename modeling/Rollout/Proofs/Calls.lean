import Rollout.Master.Session
import Rollout.Proofs.Run

/-!
What a session posts, command by command.

Before its first stop a session posts what each command calls for, and the answer to that decides
what the command comes to. The first stop posts its own call whatever the answer will be, and the
line stays as it is from there on: later commands are refused, later stops agree to what is done
already.
-/
namespace Rollout.Master.Session

/-- The requests that a command calls for: one, but none for a report that lacks its agent or its
token. -/
def requests (s : Session) : Command → List Request
  | .launch offer task => [s.request (.accept s.framework offer task s.refusal)]
  | .decline offers => [s.request (.decline s.framework offers s.refusal)]
  | .acknowledge status =>
    match status.agentId, status.uuid with
    | some agent, some uuid => [s.request (.acknowledge s.framework agent status.taskId uuid)]
    | _, _ => []
  | .stop => [s.request (.teardown s.framework)]

/-- What a command comes to by the answer to its request. -/
def resultOf : Option Response → Except CommandError Unit
  | none => .error (.transport MasterError.unreachable.message)
  | some response =>
    if response.code = acceptedCode then .ok () else .error (.rejected response.refusal.message)

variable {s : Session} {answers : Answers} {line : Line}

theorem requests_eq (s : Session) (c : Command) : s.requests c =
    ((Call.ofCommand? s.framework s.refusal c).map s.request).toList := by
  cases c with
  | launch | decline | stop => rfl
  | acknowledge status =>
    simp only [requests, Call.ofCommand?, Call.acknowledging?]
    cases status.agentId with
    | none => rfl
    | some agent => cases status.uuid <;> rfl

theorem mem_requests_iff {c : Command} {q : Request} : q ∈ s.requests c ↔
    ∃ call, Call.ofCommand? s.framework s.refusal c = some call ∧ s.request call = q := by
  rw [requests_eq, Option.mem_toList, Option.map_eq_some_iff]

/-! ### One command -/

/-- A stopped session is left as it is. -/
theorem perform_of_stopped (h : line.stopped = true) (c : Command) :
    (s.manager answers).perform c line = (if c = .stop then .ok () else .error .stopped, line) := by
  simp only [manager, perform, h, if_true]
  split <;> rfl

theorem post_eq (s : Session) (answers : Answers) (call : Call) (line : Line) :
    ((s.post answers call line).1.mapError MasterError.toCommandError,
        (s.post answers call line).2)
      = (resultOf (answers line.posted.length),
        { line with posted := line.posted ++ [s.request call] }) := by
  simp only [post]
  cases answers line.posted.length with
  | none => rfl
  | some response =>
    simp only [resultOf]
    split <;> rfl

/-- As long as a session is not stopped, a command posts what it calls for. -/
theorem perform_of_running (h : line.stopped = false) (c : Command) :
    (s.manager answers).perform c line =
      (if s.requests c = [] then .ok () else resultOf (answers line.posted.length),
        ⟨c = .stop, line.posted ++ s.requests c⟩) := by
  rw [requests_eq]
  simp only [manager, perform, h, Bool.false_eq_true, if_false]
  cases Call.ofCommand? s.framework s.refusal c with
  | none => simp [Except.mapError]
  | some call => exact post_eq s answers call ⟨c = .stop, line.posted⟩

/-! ### Commands one after the other -/

theorem after_of_stopped (h : line.stopped = true) (cs : List Command) :
    (s.manager answers).after line cs = line := by
  induction cs with
  | nil => rfl
  | cons c rest ih =>
    rw [Manager.after, List.foldl_cons, perform_of_stopped h]
    exact ih

theorem after_of_running (h : line.stopped = false) {cs : List Command} (hcs : .stop ∉ cs) :
    (s.manager answers).after line cs = ⟨false, line.posted ++ cs.flatMap s.requests⟩ := by
  induction cs generalizing line with
  | nil => simp [Manager.after, ← h]
  | cons c rest ih =>
    obtain ⟨hne, hrest⟩ := not_or.1 (mt List.mem_cons.2 hcs)
    have hgoes : (⟨c = .stop, line.posted ++ s.requests c⟩ : Line).stopped = false :=
      decide_eq_false (Ne.symm hne)
    rw [Manager.after, List.foldl_cons, perform_of_running h, List.flatMap_cons,
      ← List.append_assoc]
    exact ih hgoes hrest

/-- The first stop is the last thing that is posted for. -/
theorem after_first_stop {before : List Command} (h : .stop ∉ before) (later : List Command) :
    (s.manager answers).after .initial (before ++ .stop :: later)
      = ⟨true, before.flatMap s.requests ++ [s.request (.teardown s.framework)]⟩ := by
  have hbefore : (s.manager answers).after .initial before = ⟨false, before.flatMap s.requests⟩ :=
    after_of_running rfl h
  rw [Manager.after_append, hbefore, Manager.after, List.foldl_cons, perform_of_running rfl]
  exact after_of_stopped rfl later

/-- What the first stop comes to is for its own answer to say. -/
theorem perform_first_stop {before : List Command} (h : .stop ∉ before) :
    ((s.manager answers).perform .stop ((s.manager answers).after .initial before)).1
      = resultOf (answers (before.flatMap s.requests).length) := by
  have hbefore : (s.manager answers).after .initial before = ⟨false, before.flatMap s.requests⟩ :=
    after_of_running rfl h
  rw [hbefore, perform_of_running rfl]
  rfl

/-- Whatever has been posted was called for by one of the commands. -/
theorem exists_command_of_mem_posted {cs : List Command} {q : Request}
    (hq : q ∈ ((s.manager answers).after .initial cs).posted) : ∃ c ∈ cs, q ∈ s.requests c := by
  by_cases h : .stop ∈ cs
  · obtain ⟨early, later, rfl, hearly⟩ := List.eq_append_cons_of_mem h
    rw [after_first_stop hearly] at hq
    rcases List.mem_append.1 hq with hearlier | hstop
    · obtain ⟨c, hmem, hc⟩ := List.mem_flatMap.1 hearlier
      exact ⟨c, List.mem_append_left _ hmem, hc⟩
    · exact ⟨.stop, List.mem_append_right _ List.mem_cons_self, hstop⟩
  · have hline : (s.manager answers).after .initial cs = ⟨false, cs.flatMap s.requests⟩ :=
      after_of_running rfl h
    rw [hline] at hq
    exact List.mem_flatMap.1 hq

/-- After every history of commands: if none of them was a stop, the next one posts what it calls
for, which is one request for everything but a report that lacks its agent or its token, and it
comes to what the answer to that says. If one was a stop, the first of them posted the teardown
behind the requests of the commands before it, nothing has been posted since or will be by the next
one, which is refused unless it is another stop. -/
theorem posts_until_first_stop (s : Session) (answers : Answers) (before : List Command) :
    let m := s.manager answers
    let line := m.after .initial before
    (∀ c, (s.requests c).length =
      match c with
      | .acknowledge status => if status.agentId.isSome ∧ status.uuid.isSome then 1 else 0
      | .launch .. | .decline _ | .stop => 1) ∧
    (.stop ∉ before → ∀ c,
      (m.perform c line).2.posted = line.posted ++ s.requests c ∧
      (m.perform c line).1 =
        if s.requests c = [] then .ok () else resultOf (answers line.posted.length)) ∧
    (.stop ∈ before →
      (∃ early later, before = early ++ .stop :: later ∧ .stop ∉ early ∧
        line.posted = early.flatMap s.requests ++ [s.request (.teardown s.framework)]) ∧
      ∀ c, (m.perform c line).2.posted = line.posted ∧
        (m.perform c line).1 = if c = .stop then .ok () else .error .stopped) := by
  intro m line
  refine ⟨fun c => ?_, fun h c => ?_, fun h => ?_⟩
  · cases c with
    | launch | decline | stop => rfl
    | acknowledge status =>
      simp only [requests]
      cases status.agentId <;> cases status.uuid <;> rfl
  · have hline : line = ⟨false, before.flatMap s.requests⟩ := after_of_running rfl h
    rw [perform_of_running (by rw [hline])]
    exact ⟨rfl, rfl⟩
  · obtain ⟨early, later, rfl, hearly⟩ := List.eq_append_cons_of_mem h
    have hline : line = ⟨true, _⟩ := after_first_stop hearly later
    refine ⟨⟨early, later, rfl, hearly, by rw [hline]⟩, fun c => ?_⟩
    rw [perform_of_stopped (by rw [hline])]
    exact ⟨rfl, rfl⟩

end Rollout.Master.Session
