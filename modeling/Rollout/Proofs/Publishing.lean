import Rollout.Proofs.Headway
import Rollout.Proofs.Horizon

/-!
What a run publishes.

After each event the published picture is the scheduler's own, and it is written only if it is a new
one. So the pictures of a run come from the scheduler alone: one for each event that changes the
picture. A change of the picture is a change of the scheduler, and that is headway, which bounds how
many there can be. When the manager is told to stop, the last picture is out already. A run that
breaks off has published no more than that, of what it knows then.
-/
namespace Rollout

variable {σ : Type}

/-- No number of the first picture is higher than in the second one. -/
def Progress.Precedes (p q : Progress) : Prop :=
  p.known ≤ q.known ∧ p.serviced ≤ q.serviced ∧ p.completed ≤ q.completed

theorem Progress.Precedes.trans {p q r : Progress} (h : p.Precedes q) (h' : q.Precedes r) :
    p.Precedes r := ⟨h.1.trans h'.1, h.2.1.trans h'.2.1, h.2.2.trans h'.2.2⟩

instance : Trans Progress.Precedes Progress.Precedes Progress.Precedes := ⟨.trans⟩

namespace Scheduler

variable {d : Dispatcher} {s s' : Scheduler}

/-! ### Pictures of a scheduler -/

/-- The pictures that events lead to, one for each event that changes the picture. -/
def pictures (d : Dispatcher) (s : Scheduler) : List (Nat × Event) → List Progress
  | [] => []
  | (_, e) :: rest =>
    let next := after d s e.input?.toList
    (if next.progress = s.progress then [] else [next.progress]) ++ pictures d next rest

theorem Sound.precedes_of_moves (hs : Sound d s) (hs' : Sound d s')
    (h : Roster.Moves d s.roster s'.roster) : s.progress.Precedes s'.progress := by
  refine ⟨Roster.knownCount_le_of_moves h,
    Roster.countWhere_le_of_moves HostStatus.lasting_isServiced h, ?_⟩
  have hcompleted := Roster.countWhere_le_of_moves HostStatus.lasting_isCompleted h
  exact hs.coherent.counted.le.trans (hcompleted.trans hs'.coherent.counted.ge)

/-- An event that changes the picture makes headway. -/
theorem Sound.headway_lt_of_progress_ne (hs : Sound d s) (e : Event)
    (h : (after d s e.input?.toList).progress ≠ s.progress) :
    s.registry.headway < (after d s e.input?.toList).registry.headway := by
  cases hinput : e.input? with
  | none => rw [hinput] at h; exact absurd rfl h
  | some input =>
    rw [hinput] at h
    rcases hs.eq_or_headway_lt input with heq | hlt
    · exact absurd (congrArg progress heq) h
    · exact hlt

/-- The pictures are no more than the steps of headway. -/
theorem Sound.length_pictures_le (hs : Sound d s) (events : List (Nat × Event)) :
    (pictures d s events).length + s.registry.headway
      ≤ (after d s (Event.inputs events)).registry.headway := by
  induction events generalizing s with
  | nil => exact (Nat.zero_add _).le
  | cons first rest ih =>
    obtain ⟨arrival, e⟩ := first
    have hrest := ih (sound_after hs e.input?.toList)
    rw [pictures, Event.inputs_cons, after_append, List.length_append]
    split
    · have hle : s.registry.headway ≤ (after d s e.input?.toList).registry.headway :=
        Roster.headway_le_of_moves (moves_after s _)
      rw [List.length_nil]
      omega
    · next hne =>
      have hlt := hs.headway_lt_of_progress_ne e hne
      rw [List.length_singleton]
      omega

/-- What holds between a picture and the next one that differs from it holds all along. -/
theorem Sound.isChain_pictures (hs : Sound d s) {R : Progress → Progress → Prop}
    (hR : ∀ {a b}, Sound d a → Sound d b → Roster.Moves d a.roster b.roster →
      a.progress ≠ b.progress → R a.progress b.progress)
    (events : List (Nat × Event)) : (s.progress :: pictures d s events).IsChain R := by
  induction events generalizing s with
  | nil => exact .singleton _
  | cons first rest ih =>
    obtain ⟨arrival, e⟩ := first
    have hnext := sound_after hs e.input?.toList
    rw [pictures]
    split
    · next heq => exact heq ▸ ih hnext
    · next hne => exact .cons_cons (hR hs hnext (moves_after s _) (Ne.symm hne)) (ih hnext)

end Scheduler

/-! ### Pictures of a trace -/

namespace Trace

/-- The pictures that are published, in their order. -/
def pictures (t : Trace) : List Progress := t.published.map (·.2)

/-- The picture that is out at the end, if one was out before. -/
def shown (t : Trace) (p : Progress) : Progress := t.pictures.getLastD p

/-- Each command is recorded with the picture that is out when it is given. -/
def Recorded (p : Progress) : Trace → Prop
  | [] => True
  | (_, .command _ seen) :: rest => seen = p ∧ Recorded p rest
  | (_, .publish q) :: rest => Recorded q rest
  | (_, .note _) :: rest => Recorded p rest

theorem pictures_append (a b : Trace) : pictures (a ++ b) = a.pictures ++ b.pictures := by
  rw [pictures, published, List.filterMap_append, List.map_append]
  rfl

theorem pictures_prefix {a b : Trace} (h : a <+: b) : pictures a <+: pictures b :=
  (h.filterMap _).map _

theorem shown_append (p : Progress) (a b : Trace) : shown (a ++ b) p = b.shown (a.shown p) := by
  simp only [shown, pictures_append, List.getLastD_eq_getLast?, List.getLast?_append]
  cases b.pictures.getLast? <;> rfl

theorem shown_publish (p q : Progress) (time : Nat) (t : Trace) :
    shown ((time, .publish q) :: t) p = t.shown q := List.getLastD_cons

theorem lastPublished_eq (t : Trace) : t.lastPublished = t.shown .initial := by
  rw [lastPublished, shown, pictures, List.getLastD_eq_getLast?, List.getLast?_map]

theorem recorded_append {p : Progress} {a b : Trace} :
    Recorded p (a ++ b) ↔ Recorded p a ∧ Recorded (a.shown p) b := by
  induction a generalizing p with
  | nil => exact ⟨fun h => ⟨trivial, h⟩, And.right⟩
  | cons act rest ih =>
    obtain ⟨time, act⟩ := act
    cases act with
    | command c seen => exact (and_congr_right fun _ => ih).trans and_assoc.symm
    | publish q => rw [shown_publish]; exact ih
    | note entry => exact ih

theorem mem_given {t : Trace} {time : Nat} {c : Command} {seen : Progress}
    (h : (time, .command c seen) ∈ t) : c ∈ t.given :=
  List.mem_map.2 ⟨(time, c, seen), List.mem_filterMap.2 ⟨_, h, rfl⟩, rfl⟩

end Trace

/-! ### Pictures of a run -/

namespace Run

variable {m : Manager σ} {d : Dispatcher} {s s' s'' : Run σ}

/-- From one state of a run to the other these pictures were published, and each command is recorded
with the one that was out. -/
structure Shows (s s' : Run σ) (t : Trace) (ps : List Progress) : Prop where
  pictures : t.pictures = ps
  current : s'.published = t.shown s.published
  recorded : t.Recorded s.published

theorem Shows.trans {t t' : Trace} {ps ps' : List Progress} (h : Shows s s' t ps)
    (h' : Shows s' s'' t' ps') : Shows s s'' (t ++ t') (ps ++ ps') where
  pictures := by rw [Trace.pictures_append, h.pictures, h'.pictures]
  current := by rw [h'.current, h.current, Trace.shown_append]
  recorded := Trace.recorded_append.2 ⟨h.recorded, h.current ▸ h'.recorded⟩

/-- In answer to an event nothing is published. -/
theorem shows_of_deed {t : Trace} {cs : List Command} (h : Deed m s s' t cs) :
    Shows s s' t [] := by
  cases h with
  | note => exact ⟨rfl, rfl, trivial⟩
  | launch | give => exact ⟨rfl, rfl, rfl, trivial⟩

theorem shows_of_deeds {t : Trace} {cs : List Command} (h : Deeds m s s' t cs) :
    Shows s s' t [] := by
  induction h with
  | nil => exact ⟨rfl, rfl, trivial⟩
  | cons first _ ih =>
    exact (shows_of_deed first).trans ih

theorem shows_publish (s : Run σ) : Shows s (publish s).1 (publish s).2
    (if s.scheduler.progress = s.published then [] else [s.scheduler.progress]) := by
  simp only [publish]
  split <;> exact ⟨rfl, rfl, trivial⟩

theorem published_publish (s : Run σ) : (publish s).1.published = s.scheduler.progress := by
  simp only [publish]
  split
  · next h => exact h.symm
  · rfl

theorem shows_stop (m : Manager σ) (s : Run σ) : Shows s (stop m s).1 (stop m s).2.1 [] :=
  ⟨rfl, rfl, rfl, trivial⟩

/-- The picture is a run's own. -/
def Current (s : Run σ) : Prop := s.published = s.scheduler.progress

/-- The answer to an event and the picture after it. -/
theorem shows_react_publish (h : s.Current) (m : Manager σ) (d : Dispatcher) (arrival : Nat)
    (e : Event) :
    let next := Scheduler.after d s.scheduler e.input?.toList
    let r := react m d { s with clock := max s.clock arrival } e
    Shows s (publish r.1).1 (r.2.1 ++ (publish r.1).2)
      (if next.progress = s.scheduler.progress then [] else [next.progress]) ∧
    (publish r.1).1.published = next.progress := by
  intro next r
  have hdeeds := deeds_react m d { s with clock := max s.clock arrival } e
  have hscheduler : r.1.scheduler = next := (gives_of_deeds hdeeds).scheduler
  have hreact : Shows s r.1 r.2.1 [] := by
    have hshows := shows_of_deeds hdeeds
    exact ⟨hshows.pictures, hshows.current, hshows.recorded⟩
  have hsame : r.1.published = s.scheduler.progress := by
    rw [hreact.current, Trace.shown, hreact.pictures]
    exact h
  have hboth := hreact.trans (shows_publish r.1)
  rw [hsame, hscheduler] at hboth
  exact ⟨hboth, (published_publish r.1).trans (congrArg _ hscheduler)⟩

/-- An event makes the scheduler's next picture the one that is out; it is published if it is a new
one, before a stop. -/
theorem shows_handle (h : s.Current) (m : Manager σ) (d : Dispatcher) (arrival : Nat) (e : Event) :
    let next := Scheduler.after d s.scheduler e.input?.toList
    let r := handle m d s arrival e
    Shows s r.1 r.2.1 (if next.progress = s.scheduler.progress then [] else [next.progress]) ∧
    r.1.scheduler = next ∧ r.1.Current ∧
    ∀ time seen, (time, .command .stop seen) ∈ r.2.1 → seen = next.progress := by
  intro next r
  obtain ⟨hshows, hpublished⟩ := shows_react_publish h m d arrival e
  have hgives := gives_react_publish m d s arrival e
  have hnone (time : Nat) (seen : Progress) : (time, Act.command .stop seen) ∉
      (react m d { s with clock := max s.clock arrival } e).2.1 ++
        (publish (react m d { s with clock := max s.clock arrival } e).1).2 := fun hmem =>
    Scheduler.stop_notMem_reply s.scheduler e (hgives.given ▸ Trace.mem_given hmem)
  have hcurrent := hpublished.trans (congrArg Scheduler.progress hgives.scheduler.symm)
  simp only [r, handle]
  cases (react m d { s with clock := max s.clock arrival } e).2.2 with
  | proceed =>
    exact ⟨hshows, hgives.scheduler, hcurrent, fun _ _ hmem => absurd hmem (hnone _ _)⟩
  | terminate =>
    have hall := hshows.trans (shows_stop m _)
    rw [List.append_nil] at hall
    refine ⟨hall, hgives.scheduler, hcurrent, fun time seen hmem => ?_⟩
    rcases List.mem_append.1 hmem with hearly | hlast
    · exact absurd hearly (hnone _ _)
    · cases List.mem_singleton.1 hlast
      exact hpublished

/-! ### Whole runs -/

/-- A run after each event that it handles, with all that it has done up to there. -/
def stages (m : Manager σ) (d : Dispatcher) (s : Run σ) :
    List (Nat × Event) → List (Run σ × Trace)
  | [] => []
  | (arrival, e) :: rest =>
    match handle m d s arrival e with
    | (s', acts, some _) => [(s', acts)]
    | (s', acts, none) => (s', acts) :: (stages m d s' rest).map fun x => (x.1, acts ++ x.2)

/-- What is published by a run over events that starts from `s`. -/
structure Publishes (m : Manager σ) (d : Dispatcher) (s : Run σ) (events : List (Nat × Event))
    (report : Report σ) : Prop where
  pictures : report.trace.pictures =
    s.scheduler.pictures d (s.scheduler.handled d events)
  recorded : report.trace.Recorded s.published
  /-- The last picture is out before a stop. -/
  stop : ∀ time seen, (time, .command .stop seen) ∈ report.trace → seen.phase = .done
  handled : (stages m d s events).length + report.unread.length = events.length
  current : ∀ x ∈ stages m d s events,
    x.2 <+: report.trace ∧ x.1.Current ∧ x.1.published = x.2.shown s.published

theorem publishes_disconnect (m : Manager σ) (d : Dispatcher) (closing : Nat) (s : Run σ) :
    Publishes m d s [] (follow m d closing s []) where
  pictures := rfl
  recorded := trivial
  stop _ _ hmem := by cases List.mem_singleton.1 hmem
  handled := rfl
  current _ hx := by cases hx

theorem publishes_of_done (h : s.Current) (hopen : s.scheduler.done = false) (m : Manager σ)
    (closing arrival : Nat) {e : Event} (rest : List (Nat × Event))
    (hnext : (Scheduler.after d s.scheduler e.input?.toList).done = true) :
    Publishes m d s ((arrival, e) :: rest) (follow m d closing s ((arrival, e) :: rest)) := by
  obtain ⟨hshows, -, hcurrent, hstop⟩ := shows_handle h m d arrival e
  obtain ⟨s', t, heq, -⟩ := handle_of_done (s := s) hopen hnext m arrival
  rw [heq] at hshows hcurrent hstop
  have hhandled := Scheduler.handled_cons_of_done hnext arrival rest
  have hstages : stages m d s ((arrival, e) :: rest) = [(s', t)] := by rw [stages, heq]
  rw [follow, heq]
  constructor
  · rw [hhandled]
    exact hshows.pictures.trans (List.append_nil _).symm
  · exact hshows.recorded
  · intro time seen hmem
    rw [hstop time seen hmem]
    exact if_pos hnext
  · rw [hstages]
    exact Nat.add_comm ..
  · intro x hx
    rw [hstages] at hx
    cases List.mem_singleton.1 hx
    exact ⟨List.prefix_rfl, hcurrent, hshows.current⟩

theorem publishes_of_not_done (h : s.Current) (hopen : s.scheduler.done = false) {m : Manager σ}
    {closing : Nat} (arrival : Nat) {e : Event} {rest : List (Nat × Event)}
    (hnext : (Scheduler.after d s.scheduler e.input?.toList).done = false)
    (hrest : ∀ s' : Run σ, s'.Current → s'.scheduler.done = false →
      Publishes m d s' rest (follow m d closing s' rest)) :
    Publishes m d s ((arrival, e) :: rest) (follow m d closing s ((arrival, e) :: rest)) := by
  obtain ⟨hshows, hscheduler, hcurrent, -⟩ := shows_handle h m d arrival e
  obtain ⟨s', t, heq, hgives⟩ := handle_of_not_done (s := s) hopen hnext m arrival
  rw [heq] at hshows hscheduler hcurrent
  have hlater := hrest s' hcurrent ((congrArg Scheduler.done hscheduler).trans hnext)
  have hhandled : s.scheduler.handled d ((arrival, e) :: rest)
      = (arrival, e) :: s'.scheduler.handled d rest := by
    rw [hscheduler]
    exact Scheduler.handled_cons_of_not_done hnext arrival rest
  have hstages : stages m d s ((arrival, e) :: rest)
      = (s', t) :: (stages m d s' rest).map fun x => (x.1, t ++ x.2) := by rw [stages, heq]
  rw [follow, heq]
  constructor
  · rw [hhandled, Scheduler.pictures, Trace.pictures_append, hshows.pictures, hlater.pictures,
      hscheduler]
  · exact Trace.recorded_append.2 ⟨hshows.recorded, hshows.current ▸ hlater.recorded⟩
  · intro time seen hmem
    rcases List.mem_append.1 hmem with hnow | hlast
    · have hgiven := Trace.mem_given hnow
      rw [hgives.given] at hgiven
      exact absurd hgiven (Scheduler.stop_notMem_reply s.scheduler e)
    · exact hlater.stop time seen hlast
  · have hcount := hlater.handled
    rw [hstages, List.length_cons, List.length_map, List.length_cons, ← hcount]
    exact Nat.add_right_comm ..
  · intro x hx
    rw [hstages] at hx
    rcases List.mem_cons.1 hx with rfl | hx
    · exact ⟨List.prefix_append .., hcurrent, hshows.current⟩
    · obtain ⟨y, hy, rfl⟩ := List.mem_map.1 hx
      obtain ⟨hsofar, hown, hshown⟩ := hlater.current y hy
      refine ⟨(List.prefix_append_right_inj t).2 hsofar, hown, ?_⟩
      rw [Trace.shown_append, ← hshows.current]
      exact hshown

theorem publishes_follow (h : s.Current) (hopen : s.scheduler.done = false) (m : Manager σ)
    (closing : Nat) (events : List (Nat × Event)) :
    Publishes m d s events (follow m d closing s events) := by
  induction events generalizing s with
  | nil => exact publishes_disconnect m d closing s
  | cons first rest ih =>
    obtain ⟨arrival, e⟩ := first
    cases hnext : (Scheduler.after d s.scheduler e.input?.toList).done with
    | true => exact publishes_of_done h hopen m closing arrival rest hnext
    | false => exact publishes_of_not_done h hopen arrival hnext fun _ => ih

theorem length_pictures_follow_le (m : Manager σ) (d : Dispatcher) (interval closing : Nat)
    (manager : σ) (events : List (Nat × Event)) :
    let report := follow m d closing (initial interval manager) events
    report.trace.pictures.length ≤ 3 * report.final.scheduler.registry.knownCount := by
  intro report
  let start : Run σ := initial interval manager
  have hf : Follows m d start events report := follows_follow rfl m closing events
  have hcurrent : start.Current := rfl
  have hp : Publishes m d start events report := publishes_follow hcurrent rfl m closing events
  have hs : Scheduler.Sound d start.scheduler := Scheduler.sound_initial
  have hlength := hs.length_pictures_le (start.scheduler.handled d events)
  rw [hp.pictures, hf.scheduler]
  exact (Nat.le_of_add_right_le hlength).trans (Registry.headway_le _)

/-- A run that breaks off knows all hosts whose pictures it has published. -/
theorem length_pictures_followUntil_le (m : Manager σ) (d : Dispatcher)
    (interval closing horizon : Nat) (manager : σ) (events : List (Nat × Event)) :
    let course := followUntil m d closing horizon (initial interval manager) events
    course.trace.pictures.length ≤ 3 * course.final.scheduler.registry.knownCount := by
  intro course
  let start : Run σ := initial interval manager
  cases hclose : course.close with
  | some ending =>
    obtain ⟨heq, -⟩ := followUntil_of_close hclose
    change course = _ at heq
    rw [heq]
    exact length_pictures_follow_le m d interval closing manager events
  | none =>
    -- the event in which it breaks off is the last one of a run that is no longer than that
    obtain ⟨handled, hshort, hscheduler⟩ := exists_handled_of_close hclose
    have hprefix := trace_followUntil m d closing horizon start handled
    have hf : Follows m d start handled _ := follows_follow rfl m closing handled
    have hknown : (follow m d closing start handled).final.scheduler.registry.knownCount ≤
        course.final.scheduler.registry.knownCount := by
      obtain ⟨rest, hrest⟩ := Scheduler.handled_isPrefix (d := d) start.scheduler handled
      have hafter : Scheduler.after d start.scheduler (Event.inputs handled) =
          Scheduler.after d (Scheduler.after d start.scheduler
            (Event.inputs (start.scheduler.handled d handled))) (Event.inputs rest) := by
        rw [← Scheduler.after_append, ← Event.inputs_append, hrest]
      rw [hf.scheduler, hscheduler, hafter]
      exact Roster.knownCount_le_of_moves (Scheduler.moves_after _ _)
    rw [hshort] at hprefix
    calc course.trace.pictures.length
      _ ≤ (follow m d closing start handled).trace.pictures.length :=
        (Trace.pictures_prefix hprefix).length_le
      _ ≤ 3 * (follow m d closing start handled).final.scheduler.registry.knownCount :=
        length_pictures_follow_le m d interval closing manager handled
      _ ≤ 3 * course.final.scheduler.registry.knownCount := Nat.mul_le_mul_left 3 hknown

/-- Whatever the manager answers and however launches are paced: after each event that is handled
the picture that is out is the scheduler's own. A picture is published only if it differs from the
one before, its numbers never fall, and there are at most three pictures for each known host. A stop
comes after the picture of a run that is done. On a clock that ends, a run that returns is this one,
and one that breaks off has done a part of it, with at most three pictures for each known host. -/
theorem published_on_change (m : Manager σ) (d : Dispatcher) (interval closing : Nat) (manager : σ)
    (events : List (Nat × Event)) :
    let start := initial interval manager
    let report := follow m d closing start events
    let pictures := report.trace.published.map (·.2)
    (stages m d start events).length + report.unread.length = events.length ∧
    (∀ x ∈ stages m d start events, x.2 <+: report.trace ∧
      x.1.published = x.1.scheduler.progress ∧ x.2.lastPublished = x.1.scheduler.progress) ∧
    (Progress.initial :: pictures).IsChain (· ≠ ·) ∧
    (Progress.initial :: pictures).Pairwise (fun p q =>
      p.known ≤ q.known ∧ p.serviced ≤ q.serviced ∧ p.completed ≤ q.completed) ∧
    pictures.length ≤ 3 * report.final.scheduler.registry.knownCount ∧
    (∀ (before : Trace) time seen later,
      report.trace = before ++ (time, .command .stop seen) :: later →
        seen = before.lastPublished ∧ seen.phase = .done) ∧
    ∀ horizon, let course := followUntil m d closing horizon start events
      (course.close ≠ none →
        course = ⟨report.final, report.trace, some report.ending, report.unread⟩) ∧
      course.trace <+: report.trace ∧
      course.trace.published.length ≤ 3 * course.final.scheduler.registry.knownCount := by
  intro start report pictures
  have hcurrent : start.Current := rfl
  have hp : Publishes m d start events report := publishes_follow hcurrent rfl m closing events
  have hs : Scheduler.Sound d start.scheduler := Scheduler.sound_initial
  have hpictures : pictures = start.scheduler.pictures d (start.scheduler.handled d events) :=
    hp.pictures
  refine ⟨hp.handled, fun x hx => ?_, ?_, ?_, length_pictures_follow_le .., ?_,
    fun horizon => ⟨fun hclose => ?_, trace_followUntil .., ?_⟩⟩
  · obtain ⟨hsofar, hown, hshown⟩ := hp.current x hx
    rw [Trace.lastPublished_eq]
    exact ⟨hsofar, hown, hshown.symm.trans hown⟩
  · rw [hpictures]
    exact hs.isChain_pictures (fun _ _ _ hne => hne) _
  · rw [hpictures]
    have hchain := hs.isChain_pictures (R := Progress.Precedes)
      (fun ha hb hmoves _ => ha.precedes_of_moves hb hmoves)
      (start.scheduler.handled d events)
    exact (List.isChain_iff_pairwise.1 hchain :)
  · intro before time seen later htrace
    have hrecorded := hp.recorded
    rw [htrace, Trace.recorded_append] at hrecorded
    refine ⟨hrecorded.2.1.trans (Trace.lastPublished_eq before).symm, hp.stop time seen ?_⟩
    rw [htrace]
    exact List.mem_append_right _ List.mem_cons_self
  · obtain ⟨ending, hending⟩ := Option.ne_none_iff_exists'.1 hclose
    obtain ⟨heq, rfl⟩ := followUntil_of_close hending
    exact heq
  · have hlength := length_pictures_followUntil_le m d interval closing horizon manager events
    exact (List.length_map _).ge.trans hlength

/-- One host takes all three steps; what is told twice is shown once. -/
example :
    let lost := Event.status (.bare (Sample.dispatcher.taskId 0) .lost)
    let finished := Event.status (.bare (Sample.dispatcher.taskId 0) .finished)
    let report := follow Manager.scripted Sample.dispatcher 9 (initial 250 [])
      [(0, .offers [Sample.offer "o1" "h1"]), (1, lost), (2, lost), (3, finished)]
    report.trace.published.map (·.1) = [0, 1, 3] := by decide

end Run

end Rollout
