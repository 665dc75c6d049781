import Rollout.Proofs.Run

/-!
Runs that break off.

As long as there are slots, a run does what it would do on a clock without an end. So it either
returns, and then it is that run, or it breaks off in front of a launch that the other one goes on
with, and then the interval from the last launch ends behind the horizon. Up to there the manager
and the scheduler have seen the same in both.
-/
namespace Rollout.Run

variable {σ : Type} {m : Manager σ} {d : Dispatcher} {horizon : Nat} {s s' s'' : Run σ}

/-! ### Launches -/

theorem launchAll_cons (m : Manager σ) (s : Run σ) (l : Launch) (ls : List Launch) :
    launchAll m s (l :: ls) = ((launchAll m (launch m s l).1 ls).1,
      (launch m s l).2 ++ (launchAll m (launch m s l).1 ls).2) := rfl

theorem launchAll_append (m : Manager σ) (s : Run σ) (early late : List Launch) :
    launchAll m s (early ++ late) =
      ((launchAll m (launchAll m s early).1 late).1,
        (launchAll m s early).2 ++ (launchAll m (launchAll m s early).1 late).2) := by
  induction early generalizing s with
  | nil => rfl
  | cons l early ih => simp only [List.cons_append, launchAll_cons, ih, List.append_assoc]

/-- The launches that have slots go out as they would on a clock without an end. -/
theorem exists_launchUntil (m : Manager σ) (horizon : Nat) (s : Run σ) (ls : List Launch) :
    ∃ early left, ls = early ++ left ∧
      launchUntil m horizon s ls = ((launchAll m s early).1, (launchAll m s early).2, left) ∧
      (left ≠ [] → (launchAll m s early).1.pacer.ready? horizon (launchAll m s early).1.clock
        = none) := by
  induction ls generalizing s with
  | nil => exact ⟨[], [], rfl, rfl, fun h => absurd rfl h⟩
  | cons l ls ih =>
    cases hslot : s.pacer.ready? horizon s.clock with
    | none => exact ⟨[], l :: ls, rfl, by rw [launchUntil, hslot]; rfl, fun _ => hslot⟩
    | some slot =>
      have hready : s.pacer.ready s.clock = slot := Pacer.ready?_eq_some hslot
      obtain ⟨early, left, rfl, heq, hleft⟩ := ih (launch m s l).1
      refine ⟨l :: early, left, rfl, ?_, hleft⟩
      rw [launch, hready] at heq
      rw [launchUntil, hslot, launchAll, launch, hready]
      dsimp only
      rw [heq]

/-! ### Events -/

/-- From `s` on a run has done `t` and breaks off in `s'`, in front of a launch that a run on a
clock without an end goes on with: that one does `whole`. -/
structure BreaksOff (m : Manager σ) (horizon : Nat) (s s' : Run σ) (t whole : Trace) : Prop where
  noSlot : s'.pacer.ready? horizon s'.clock = none
  whole : ∃ l : Launch,
    t ++ [(s'.pacer.due s'.clock, .command l.command s'.published)] <+: whole
  gives : Gives m s s' t t.given

theorem Gives.breaksOff {t t' whole : Trace} {cs : List Command} (h : Gives m s s' t cs)
    (h' : BreaksOff m horizon s' s'' t' whole) :
    BreaksOff m horizon s s'' (t ++ t') (t ++ whole) where
  noSlot := h'.noSlot
  whole := by
    obtain ⟨l, hwhole⟩ := h'.whole
    exact ⟨l, by rwa [List.append_assoc, List.prefix_append_right_inj]⟩
  gives := by
    have hboth := h.trans h'.gives
    rwa [← h.given, ← Trace.given_append] at hboth

theorem BreaksOff.append {t whole : Trace} (h : BreaksOff m horizon s s' t whole) (more : Trace) :
    BreaksOff m horizon s s' t (whole ++ more) where
  noSlot := h.noSlot
  whole := h.whole.imp fun _ hwhole => hwhole.trans (List.prefix_append ..)
  gives := h.gives

/-- A run that breaks off has come to the end of its clock. -/
theorem BreaksOff.overflow {t whole : Trace} (h : BreaksOff m horizon s s' t whole) :
    s.pacer.interval ≠ 0 ∧ ∃ last ∈ s'.pacer.last, horizon < last + s.pacer.interval := by
  obtain ⟨hzero, last, hlast, hover⟩ := Pacer.ready?_eq_none_iff.1 h.noSlot
  rw [h.gives.interval] at hzero hover
  exact ⟨hzero, last, hlast, hover⟩

/-- An event leads to what it would on a clock without an end, or the run breaks off in it. -/
theorem reactUntil_cases (m : Manager σ) (d : Dispatcher) (horizon : Nat) (s : Run σ) (e : Event) :
    reactUntil m d horizon s e =
      ((react m d s e).1, (react m d s e).2.1, some (react m d s e).2.2) ∨
    ∃ s' t, reactUntil m d horizon s e = (s', t, none) ∧
      BreaksOff m horizon { s with scheduler := Scheduler.after d s.scheduler e.input?.toList }
        s' t (react m d s e).2.1 := by
  cases e with
  | registered _ | rescinded _ | error _ | status _ => exact .inl rfl
  | offers batch =>
    let start : Run σ := { s with scheduler := (s.scheduler.handleOffers d batch).1 }
    obtain ⟨early, left, hlaunches, heq, hleft⟩ :=
      exists_launchUntil m horizon start (s.scheduler.handleOffers d batch).2.launches
    cases left with
    | nil =>
      rw [List.append_nil] at hlaunches
      subst hlaunches
      refine .inl ?_
      simp only [reactUntil, start, heq]
      rfl
    | cons l left =>
      refine .inr ⟨_, _, by simp only [reactUntil, start, heq]; rfl, ?_⟩
      have hgives := gives_of_deeds (deeds_launchAll m start early)
      refine ⟨hleft nofun, ⟨l, ?_⟩, hgives.given.symm ▸ hgives⟩
      simp only [react, handleOffers, hlaunches, launchAll_append, launchAll_cons,
        List.append_assoc, List.prefix_append_right_inj]
      exact List.prefix_append ..

/-- What an event led to comes first in what is done about it. -/
theorem exists_conclude (m : Manager σ) (s : Run σ) (acts : Trace) (decision : Decision) :
    ∃ more, (conclude m s acts decision).2.1 = acts ++ more := by
  cases decision with
  | proceed => exact ⟨_, rfl⟩
  | terminate => exact ⟨_, List.append_assoc ..⟩

theorem handleUntil_cases (m : Manager σ) (d : Dispatcher) (horizon : Nat) (s : Run σ)
    (arrival : Nat) (e : Event) :
    handleUntil m d horizon s arrival e =
      ((handle m d s arrival e).1, (handle m d s arrival e).2.1,
        (handle m d s arrival e).2.2.map some) ∨
    ∃ s' t, handleUntil m d horizon s arrival e = (s', t, some none) ∧
      BreaksOff m horizon { s with scheduler := Scheduler.after d s.scheduler e.input?.toList }
        s' t (handle m d s arrival e).2.1 := by
  rcases reactUntil_cases m d horizon { s with clock := max s.clock arrival } e with
    heq | ⟨s', t, heq, hbreaks⟩
  · exact .inl (by rw [handleUntil, heq]; rfl)
  · refine .inr ⟨s', t, by rw [handleUntil, heq], ?_⟩
    obtain ⟨more, hmore⟩ := exists_conclude m
      (react m d { s with clock := max s.clock arrival } e).1
      (react m d { s with clock := max s.clock arrival } e).2.1
      (react m d { s with clock := max s.clock arrival } e).2.2
    obtain ⟨hslot, hwhole, hgives⟩ := hbreaks.append more
    rw [← hmore] at hwhole
    exact ⟨hslot, hwhole, hgives.scheduler, hgives.interval, hgives.given, hgives.manager⟩

/-- An event that does not end a run gives the commands of the reply. -/
theorem gives_of_handle {arrival : Nat} {e : Event} {t : Trace}
    (h : handle m d s arrival e = (s', t, none)) :
    Gives m { s with scheduler := Scheduler.after d s.scheduler e.input?.toList } s' t
      (s.scheduler.reply d e) := by
  have hgives := gives_react_publish m d s arrival e
  simp only [handle] at h
  cases hdecision : (react m d { s with clock := max s.clock arrival } e).2.2 with
  | proceed =>
    rw [hdecision] at h
    cases h
    exact hgives
  | terminate =>
    rw [hdecision] at h
    cases h

/-! ### Whole runs -/

/-- A run returns as it would on a clock without an end, or it breaks off while it handles an event,
whatever comes behind that one. -/
theorem followUntil_cases (m : Manager σ) (d : Dispatcher) (closing horizon : Nat) (s : Run σ)
    (events : List (Nat × Event)) :
    let report := follow m d closing s events
    followUntil m d closing horizon s events =
      ⟨report.final, report.trace, some report.ending, report.unread⟩ ∨
    ∃ s' t handled unread, events = handled ++ unread ∧
      (∀ later, followUntil m d closing horizon s (handled ++ later) = ⟨s', t, none, later⟩) ∧
      BreaksOff m horizon
        { s with scheduler := Scheduler.after d s.scheduler (Event.inputs handled) } s' t
        report.trace := by
  induction events generalizing s with
  | nil => exact .inl rfl
  | cons first rest ih =>
    obtain ⟨arrival, e⟩ := first
    rw [follow]
    rcases handleUntil_cases m d horizon s arrival e with heq | ⟨s', t, heq, hbreaks⟩
    · rcases hhandle : handle m d s arrival e with ⟨s', acts, _ | ending⟩
      · have hgives := gives_of_handle hhandle
        rcases ih s' with hwhole | ⟨s'', t, handled, unread, rfl, hcourse, hbreaks⟩
        · exact .inl (by simp only [followUntil, heq, hhandle, Option.map_none, hwhole])
        · refine .inr ⟨s'', acts ++ t, (arrival, e) :: handled, unread, rfl, fun later => ?_, ?_⟩
          · simp only [List.cons_append, followUntil, heq, hhandle, Option.map_none, hcourse]
          · have hearly : Gives m
                { s with scheduler :=
                    Scheduler.after d s.scheduler (Event.inputs ((arrival, e) :: handled)) }
                { s' with scheduler := Scheduler.after d s'.scheduler (Event.inputs handled) } acts
                (s.scheduler.reply d e) :=
              ⟨by rw [hgives.scheduler, Event.inputs_cons, Scheduler.after_append],
                hgives.interval, hgives.given, hgives.manager⟩
            exact hearly.breaksOff hbreaks
      · exact .inl (by rw [followUntil, heq, hhandle]; rfl)
    · refine .inr ⟨s', t, [(arrival, e)], rest, rfl, fun later => ?_, ?_⟩
      · rw [List.singleton_append, followUntil, heq]
      · have hinputs : Event.inputs [(arrival, e)] = e.input?.toList :=
          (Event.inputs_cons arrival e []).trans (List.append_nil _)
        rw [hinputs]
        rcases hhandle : handle m d s arrival e with ⟨s₁, acts, _ | ending⟩
        · rw [hhandle] at hbreaks
          exact hbreaks.append _
        · rw [hhandle] at hbreaks
          exact hbreaks

variable {closing : Nat} {events : List (Nat × Event)}

/-- A run that returns is the one on a clock without an end. -/
theorem followUntil_of_close {ending : Ending}
    (h : (followUntil m d closing horizon s events).close = some ending) :
    let report := follow m d closing s events
    followUntil m d closing horizon s events =
        ⟨report.final, report.trace, some ending, report.unread⟩ ∧
      report.ending = ending := by
  intro report
  rcases followUntil_cases m d closing horizon s events with heq | ⟨s', t, _, _, rfl, heq, -⟩
  · rw [heq] at h
    cases h
    exact ⟨heq, rfl⟩
  · rw [heq] at h
    cases h

/-- A run breaks off only if the interval from its last launch ends behind the horizon. -/
theorem overflow_of_close (h : (followUntil m d closing horizon s events).close = none) :
    s.pacer.interval ≠ 0 ∧ ∃ last ∈ (followUntil m d closing horizon s events).final.pacer.last,
      horizon < last + s.pacer.interval := by
  rcases followUntil_cases m d closing horizon s events with heq | ⟨s', t, _, _, rfl, heq, hbreaks⟩
  · rw [heq] at h
    cases h
  · rw [heq]
    exact hbreaks.overflow

/-- A run that breaks off would have gone on with a launch, at a time behind the horizon. -/
theorem exists_launch_of_close (h : (followUntil m d closing horizon s events).close = none) :
    ∃ (l : Launch) (time : Nat) (seen : Progress), horizon < time ∧
      (followUntil m d closing horizon s events).trace ++ [(time, .command l.command seen)] <+:
        (follow m d closing s events).trace := by
  rcases followUntil_cases m d closing horizon s events with heq | ⟨s', t, _, _, rfl, heq, hbreaks⟩
  · rw [heq] at h
    cases h
  · obtain ⟨l, hwhole⟩ := hbreaks.whole
    rw [heq]
    exact ⟨l, _, _, Pacer.lt_due_of_ready?_eq_none hbreaks.noSlot, hwhole⟩

/-- A run that breaks off has not been stopped. -/
theorem stop_notMem_of_close (hopen : s.scheduler.done = false)
    (h : (followUntil m d closing horizon s events).close = none) :
    .stop ∉ (followUntil m d closing horizon s events).trace.given := by
  intro hstop
  obtain ⟨l, time, seen, -, more, hmore⟩ := exists_launch_of_close h
  obtain ⟨before, later, hsplit⟩ := List.append_of_mem hstop
  have hgiven := congrArg Trace.given hmore
  rw [Trace.given_append, Trace.given_append, hsplit, List.append_assoc, List.append_assoc,
    List.cons_append] at hgiven
  -- the launch that is missing would come after the stop
  have hnil := (follows_follow hopen m closing events).nil_of_stop hgiven.symm
  exact List.cons_ne_nil _ _ (List.append_eq_nil_iff.1 (List.append_eq_nil_iff.1 hnil).2).1

/-- However a run closes, it does not stray from the one on a clock without an end. -/
theorem trace_followUntil (m : Manager σ) (d : Dispatcher) (closing horizon : Nat) (s : Run σ)
    (events : List (Nat × Event)) :
    (followUntil m d closing horizon s events).trace <+: (follow m d closing s events).trace := by
  rcases followUntil_cases m d closing horizon s events with heq | ⟨s', t, _, _, rfl, heq, hbreaks⟩
  · rw [heq]
  · obtain ⟨l, hwhole⟩ := hbreaks.whole
    rw [heq]
    exact (List.prefix_append ..).trans hwhole

/-- The manager has carried out the commands of the trace, however the run closed. -/
theorem manager_followUntil (hopen : s.scheduler.done = false) (m : Manager σ)
    (closing horizon : Nat) (events : List (Nat × Event)) :
    (followUntil m d closing horizon s events).final.manager =
      m.after s.manager (followUntil m d closing horizon s events).trace.given := by
  rcases followUntil_cases m d closing horizon s events with heq | ⟨s', t, _, _, rfl, heq, hbreaks⟩
  · rw [heq]
    exact manager_follow hopen m closing events
  · rw [heq]
    exact hbreaks.gives.manager

/-- The scheduler is left as the events make it that were looked at, however the run closed. -/
theorem exists_handled (hopen : s.scheduler.done = false) (m : Manager σ) (d : Dispatcher)
    (closing horizon : Nat) (events : List (Nat × Event)) :
    ∃ handled, events = handled ++ (followUntil m d closing horizon s events).unread ∧
      (followUntil m d closing horizon s events).final.scheduler =
        Scheduler.after d s.scheduler (Event.inputs handled) := by
  rcases followUntil_cases m d closing horizon s events with
    heq | ⟨s', t, handled, unread, rfl, heq, hbreaks⟩
  · have hf : Follows m d s events _ := follows_follow hopen m closing events
    rw [heq]
    exact ⟨_, hf.unread, hf.scheduler⟩
  · rw [heq]
    exact ⟨handled, rfl, hbreaks.gives.scheduler⟩

/-- A run that breaks off does not depend on what comes behind the event in which it does. -/
theorem exists_handled_of_close (h : (followUntil m d closing horizon s events).close = none) :
    let course := followUntil m d closing horizon s events
    ∃ handled, followUntil m d closing horizon s handled = { course with unread := [] } ∧
      course.final.scheduler = Scheduler.after d s.scheduler (Event.inputs handled) := by
  intro course
  rcases followUntil_cases m d closing horizon s events with
    heq | ⟨s', t, handled, unread, rfl, heq, hbreaks⟩
  · rw [heq] at h
    cases h
  · have hcourse : course = ⟨s', t, none, unread⟩ := heq unread
    rw [hcourse]
    refine ⟨handled, ?_, hbreaks.gives.scheduler⟩
    have hshort := heq []
    rwa [List.append_nil] at hshort

end Rollout.Run
