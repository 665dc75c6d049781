import Rollout.Proofs.Turns
import Mathlib.Data.List.Chain
import Mathlib.Data.List.Forall2

/-!
Timetables: when turns start and when their commands are given.

A turn starts when its event has arrived and the turn before it is over. A launch is given when its
turn starts, or the interval after the launch before it if that is later, and it does not matter
whose turn that one was. Any other command is given together with the one before it. From this alone
it follows that launches keep their distance, however many lie between them, and that no time is
wasted: no plan for the same turns that keeps the order and the interval launches anything earlier.
-/
namespace Rollout

/-! ### One thing after the other -/

/-- Each element is as it has to be after what the one before it leaves; for the first one, that is
given. -/
def Threaded {α β : Type} (left : α → β) (R : β → α → Prop) : β → List α → Prop
  | _, [] => True
  | given, x :: rest => R given x ∧ Threaded left R (left x) rest

section Threaded

variable {α β : Type} {left : α → β} {R : β → α → Prop} {given : β}

theorem getLastD_append (a b : List α) (x : α) :
    (a ++ b).getLastD x = b.getLastD (a.getLastD x) := by
  simp only [List.getLastD_eq_getLast?, List.getLast?_append]
  cases b.getLast? <;> rfl

theorem threaded_append {a b : List α} : Threaded left R given (a ++ b) ↔
    Threaded left R given a ∧ Threaded left R ((a.map left).getLastD given) b := by
  induction a generalizing given with
  | nil => exact (and_iff_right trivial).symm
  | cons x rest ih =>
    rw [List.map_cons, List.getLastD_cons]
    exact (and_congr_right fun _ => ih).trans and_assoc.symm

theorem isChain_of_threaded {l : List α} (h : Threaded left R given l) :
    l.IsChain fun x y => R (left x) y := by
  induction l generalizing given with
  | nil => exact .nil
  | cons x rest ih =>
    cases rest with
    | nil => exact .singleton x
    | cons y rest => exact .cons_cons h.2.1 (ih h.2)

theorem forall_of_threaded {P : α → Prop} (hR : ∀ b x, R b x → P x) {l : List α}
    (h : Threaded left R given l) : ∀ x ∈ l, P x := by
  induction l generalizing given with
  | nil => exact fun _ hx => by cases hx
  | cons x rest ih => exact List.forall_mem_cons.2 ⟨hR _ x h.1, ih h.2⟩

end Threaded

/-! ### Launches in their slots -/

/-- The earliest time, from `ready` on, at the interval from the last launch. -/
def Pacer.slot (interval ready : Nat) : Option Nat → Nat
  | none => ready
  | some last => max ready (last + interval)

/-- Launches, each with the time from which it is ready, all go out as early as they can. -/
abbrev InSlots (interval : Nat) : Option Nat → List (Nat × Nat) → Prop :=
  Threaded (fun l => some l.2) fun last l => l.2 = Pacer.slot interval l.1 last

/-- Times that keep the interval. -/
abbrev Spaced (interval : Nat) (times : List Nat) : Prop := times.IsChain fun a b => a + interval ≤ b

section InSlots

variable {interval : Nat} {last : Option Nat} {launches : List (Nat × Nat)} {times : List Nat}

theorem Pacer.ready_le_slot (interval ready : Nat) (last : Option Nat) :
    ready ≤ slot interval ready last := by
  cases last with
  | none => exact le_rfl
  | some last => exact Nat.le_max_left _ _

/-- What follows launches that are ready at one time goes by the last of them. -/
theorem inSlots_append {ready : Nat} : InSlots interval last (times.map (ready, ·) ++ launches) ↔
    InSlots interval last (times.map (ready, ·)) ∧
      InSlots interval ((times.map some).getLastD last) launches := by
  refine threaded_append.trans ?_
  rw [List.map_map]
  rfl

theorem spaced_of_inSlots (h : InSlots interval last launches) :
    Spaced interval (launches.map (·.2)) := by
  rw [Spaced, List.isChain_map]
  refine (isChain_of_threaded h).imp fun a b hb => ?_
  rw [hb]
  exact Nat.le_max_right _ _

theorem ready_le_of_inSlots (h : InSlots interval last launches) : ∀ l ∈ launches, l.1 ≤ l.2 :=
  forall_of_threaded (fun last l hl => hl ▸ Pacer.ready_le_slot interval l.1 last) h

/-- Times that keep the interval from one to the next keep it over any number of steps. -/
theorem add_mul_le_of_spaced (h : Spaced interval times) {i k a b : Nat} (ha : times[i]? = some a)
    (hb : times[i + k]? = some b) : a + k * interval ≤ b := by
  induction k generalizing b with
  | zero =>
    rw [Nat.add_zero, ha, Option.some.injEq] at hb
    rw [hb, Nat.zero_mul, Nat.add_zero]
  | succ k ih =>
    obtain ⟨hlt, rfl⟩ := List.getElem?_eq_some_iff.1 hb
    have hlt' : i + k < times.length := Nat.lt_of_succ_lt hlt
    have hbefore := ih (List.getElem?_eq_getElem hlt')
    have hstep := List.isChain_iff_getElem.1 h (i + k) hlt
    rw [Nat.succ_mul, ← Nat.add_assoc]
    exact (Nat.add_le_add_right hbefore interval).trans hstep

/-- Launches in their slots are no later than any others that keep the interval, if those are no
earlier than the first ones are ready. -/
theorem le_of_inSlots (h : InSlots interval last launches)
    (hready : List.Forall₂ (fun l time => l.1 ≤ time) launches times)
    (hfirst : ∀ time ∈ times.head?, ∀ before ∈ last, before + interval ≤ time)
    (hspaced : Spaced interval times) :
    List.Forall₂ (fun l time => l.2 ≤ time) launches times := by
  induction hready generalizing last with
  | nil => exact .nil
  | @cons l time launches times hl _ ih =>
    have hle : l.2 ≤ time := by
      rw [h.1]
      cases last with
      | none => exact hl
      | some before => exact Nat.max_le.2 ⟨hl, hfirst time rfl before rfl⟩
    obtain ⟨hnext, hrest⟩ := List.isChain_cons.1 hspaced
    refine .cons hle (ih h.2 (fun next hmem before hbefore => ?_) hrest)
    cases hbefore
    exact (Nat.add_le_add_right hle interval).trans (hnext next hmem)

/-- What is ready only after some launch is in the same slot if it is ready sooner. -/
theorem inSlots_of_later {ready before : Nat} (hle : before ≤ last.getD 0)
    (h : InSlots interval last (times.map (max ready before, ·))) :
    InSlots interval last (times.map (ready, ·)) := by
  induction times generalizing last with
  | nil => trivial
  | cons time rest ih =>
    have htime : time = Pacer.slot interval (max ready before) last := h.1
    have hslot : time = Pacer.slot interval ready last := by
      cases last with
      | none =>
        have hzero : before = 0 := Nat.le_zero.1 hle
        rw [htime, hzero, Nat.max_zero]
      | some l =>
        simp only [Pacer.slot, Option.getD_some] at htime hle ⊢
        omega
    have hbefore : max ready before ≤ time := htime ▸ Pacer.ready_le_slot ..
    exact ⟨hslot, ih ((Nat.le_max_right _ _).trans hbefore) h.2⟩

/-- Without an interval, launches go out as soon as they are ready. -/
theorem eq_ready_of_inSlots {ready : Nat} (hle : last.getD 0 ≤ ready)
    (h : InSlots 0 last (times.map (ready, ·))) : ∀ time ∈ times, time = ready := by
  induction times generalizing last with
  | nil => exact fun _ htime => by cases htime
  | cons time rest ih =>
    have htime : time = Pacer.slot 0 ready last := h.1
    have hnow : time = ready := by
      cases last with
      | none => exact htime
      | some l => exact htime.trans (Nat.max_eq_left hle)
    have hlast : (some time).getD 0 ≤ ready := hnow.le
    exact List.forall_mem_cons.2 ⟨hnow, ih hlast h.2⟩

end InSlots

/-! ### Turns -/

/-- A turn with its times. -/
structure TimedTurn where
  arrival : Nat
  event : Event
  start : Nat
  /-- The commands with the times at which they are given. -/
  calls : List (Nat × Command)

/-- The times of the launches among some commands. -/
def launchTimes (calls : List (Nat × Command)) : List Nat :=
  calls.filterMap fun c => c.2.launch?.map fun _ => c.1

/-- Every command that is no launch is given with the one before it. -/
abbrev Prompt : Nat → List (Nat × Command) → Prop :=
  Threaded (·.1) fun now c => c.2.launch? = none → c.1 = now

theorem launchTimes_cons_of_none {c : Nat × Command} (h : c.2.launch? = none)
    (rest : List (Nat × Command)) : launchTimes (c :: rest) = launchTimes rest :=
  List.filterMap_cons_none (by rw [h]; rfl)

theorem launchTimes_cons_of_some {c : Nat × Command} {l : Launch} (h : c.2.launch? = some l)
    (rest : List (Nat × Command)) : launchTimes (c :: rest) = c.1 :: launchTimes rest :=
  List.filterMap_cons_some (by rw [h]; rfl)

theorem getLastD_of_prompt {now : Nat} {calls : List (Nat × Command)} (h : Prompt now calls) :
    (calls.map (·.1)).getLastD now = (launchTimes calls).getLastD now := by
  induction calls generalizing now with
  | nil => rfl
  | cons c rest ih =>
    rw [List.map_cons, List.getLastD_cons, ih h.2]
    cases hc : c.2.launch? with
    | none =>
      have hnow : c.1 = now := h.1 hc
      rw [launchTimes_cons_of_none hc, ← hnow]
    | some l => rw [launchTimes_cons_of_some hc, List.getLastD_cons]

namespace TimedTurn

/-- A turn is over with its last command. -/
def finish (t : TimedTurn) : Nat := (t.calls.map (·.1)).getLastD t.start

/-- The launches of a turn, ready from its start. -/
def launches (t : TimedTurn) : List (Nat × Nat) := (launchTimes t.calls).map (t.start, ·)

/-- The last launch when a turn is over. -/
def lastLaunch (t : TimedTurn) (last : Option Nat) : Option Nat :=
  ((launchTimes t.calls).map some).getLastD last

/-- Turns that start one after the other, each as soon as its event has arrived. -/
abbrev Consecutive : Nat → List TimedTurn → Prop :=
  Threaded finish fun clock t => t.start = max t.arrival clock

theorem times_eq (t : TimedTurn) : t.launches.map (·.2) = launchTimes t.calls := by
  rw [launches, List.map_map]
  exact List.map_id _

/-- A turn is over with its last launch, or at once if it has none. -/
theorem finish_cases {t : TimedTurn} (h : Prompt t.start t.calls) (last : Option Nat) :
    (t.launches = [] ∧ t.finish = t.start ∧ t.lastLaunch last = last) ∨
      ((t.start, t.finish) ∈ t.launches ∧ t.lastLaunch last = some t.finish) := by
  have hfinish : t.finish = (launchTimes t.calls).getLastD t.start := getLastD_of_prompt h
  rw [lastLaunch, launches, hfinish]
  rcases List.eq_nil_or_concat (launchTimes t.calls) with hnil | ⟨times, time, heq⟩
  · rw [hnil]
    exact .inl ⟨rfl, rfl, rfl⟩
  · rw [heq]
    simp

end TimedTurn

/-- The times of some turns, from a time on and with a last launch behind them. -/
structure Timetable (interval clock : Nat) (last : Option Nat) (turns : List TimedTurn) :
    Prop where
  consecutive : TimedTurn.Consecutive clock turns
  inSlots : InSlots interval last (turns.flatMap TimedTurn.launches)
  prompt : ∀ t ∈ turns, Prompt t.start t.calls

namespace Timetable

variable {interval clock : Nat} {last : Option Nat} {turns : List TimedTurn}

theorem nil : Timetable interval clock last [] := ⟨trivial, trivial, fun _ h => by cases h⟩

theorem cons_iff {t : TimedTurn} : Timetable interval clock last (t :: turns) ↔
    t.start = max t.arrival clock ∧ InSlots interval last t.launches ∧ Prompt t.start t.calls ∧
      Timetable interval t.finish (t.lastLaunch last) turns := by
  constructor
  · rintro ⟨⟨hstart, hconsecutive⟩, hslots, hprompt⟩
    obtain ⟨hnow, hlater⟩ := inSlots_append.1 (List.flatMap_cons ▸ hslots)
    obtain ⟨hp, hps⟩ := List.forall_mem_cons.1 hprompt
    exact ⟨hstart, hnow, hp, hconsecutive, hlater, hps⟩
  · rintro ⟨hstart, hnow, hp, hconsecutive, hlater, hps⟩
    exact ⟨⟨hstart, hconsecutive⟩, List.flatMap_cons ▸ inSlots_append.2 ⟨hnow, hlater⟩,
      List.forall_mem_cons.2 ⟨hp, hps⟩⟩

theorem arrival_le_start (h : Timetable interval clock last turns) :
    ∀ t ∈ turns, t.arrival ≤ t.start :=
  forall_of_threaded (fun _ _ ht => ht ▸ Nat.le_max_left _ _) h.consecutive

/-- No turn starts before the one ahead of it. -/
theorem isChain_start (h : Timetable interval clock last turns) :
    turns.IsChain fun t u => t.start ≤ u.start := by
  refine (isChain_of_threaded h.consecutive).imp_of_mem_imp fun t u ht _ hu => ?_
  have hover : t.start ≤ t.finish := by
    rcases t.finish_cases (h.prompt t ht) none with ⟨-, hfinish, -⟩ | ⟨hmem, -⟩
    · exact hfinish.ge
    · exact ready_le_of_inSlots h.inSlots _ (List.mem_flatMap.2 ⟨t, ht, hmem⟩)
  rw [hu]
  exact hover.trans (Nat.le_max_right _ _)

end Timetable

/-! ### No plan is earlier -/

namespace TimedTurn

/-- The launches of turns, each ready as soon as the events up to its own have arrived. -/
def released (latest : Nat) : List TimedTurn → List (Nat × Nat)
  | [] => []
  | t :: rest => (launchTimes t.calls).map (max latest t.arrival, ·) ++
      released (max latest t.arrival) rest

theorem map_released (latest : Nat) (turns : List TimedTurn) :
    (released latest turns).map (·.2) = (turns.flatMap launches).map (·.2) := by
  induction turns generalizing latest with
  | nil => rfl
  | cons t rest ih =>
    rw [released, List.flatMap_cons, List.map_append, List.map_append, ih, times_eq, List.map_map]
    exact congrArg (· ++ _) (List.map_id _)

end TimedTurn

/-- A plan for some turns: a start for each and the times of its launches. No turn is started before
its event has arrived, nor any before the one ahead of it; nothing is launched before its turn is
started, and launches keep the interval. -/
structure Feasible (interval : Nat) (turns : List TimedTurn) (plan : List (Nat × List Nat)) :
    Prop where
  fits : List.Forall₂ (fun t p => p.2.length = t.launches.length ∧ t.arrival ≤ p.1) turns plan
  ordered : plan.IsChain fun p q => p.1 ≤ q.1
  within : ∀ p ∈ plan, ∀ time ∈ p.2, p.1 ≤ time
  spaced : Spaced interval (plan.flatMap (·.2))

/-- A plan launches nothing before the events up to that turn have arrived. -/
theorem released_le {turns : List TimedTurn} {plan : List (Nat × List Nat)} {latest : Nat}
    (fits : List.Forall₂ (fun t p => p.2.length = t.launches.length ∧ t.arrival ≤ p.1) turns plan)
    (hfirst : ∀ p ∈ plan.head?, latest ≤ p.1) (ordered : plan.IsChain fun p q => p.1 ≤ q.1)
    (within : ∀ p ∈ plan, ∀ time ∈ p.2, p.1 ≤ time) :
    List.Forall₂ (fun l time => l.1 ≤ time) (TimedTurn.released latest turns)
      (plan.flatMap (·.2)) := by
  induction fits generalizing latest with
  | nil => exact .nil
  | @cons t p turns plan hp _ ih =>
    obtain ⟨hnext, hordered⟩ := List.isChain_cons.1 ordered
    obtain ⟨hwithin, hrest⟩ := List.forall_mem_cons.1 within
    have hlatest : max latest t.arrival ≤ p.1 := Nat.max_le.2 ⟨hfirst p rfl, hp.2⟩
    rw [TimedTurn.released, List.flatMap_cons]
    refine List.rel_append ?_ (ih (fun q hq => hlatest.trans (hnext q hq)) hordered hrest)
    rw [List.forall₂_map_left_iff, List.forall₂_iff_zip]
    refine ⟨?_, fun hmem => hlatest.trans (hwithin _ (List.of_mem_zip hmem).2)⟩
    rw [hp.1, TimedTurn.launches, List.length_map]

namespace Timetable

variable {interval clock : Nat} {last : Option Nat} {turns : List TimedTurn}

/-- Waiting for the turn before is no more than waiting for its event and its last launch. -/
theorem inSlots_released {latest : Nat} (h : Timetable interval clock last turns)
    (hclock : clock = max latest (last.getD 0)) :
    InSlots interval last (TimedTurn.released latest turns) := by
  induction turns generalizing clock last latest with
  | nil => trivial
  | cons t rest ih =>
    obtain ⟨hstart, hslots, hprompt, hrest⟩ := cons_iff.1 h
    have hready : t.start = max (max latest t.arrival) (last.getD 0) := by omega
    have hover : t.finish = max (max latest t.arrival) ((t.lastLaunch last).getD 0) := by
      rcases t.finish_cases hprompt last with ⟨-, hfinish, heq⟩ | ⟨hmem, heq⟩
      · rw [hfinish, heq, hready]
      · have hlaunch : t.start ≤ t.finish := ready_le_of_inSlots hslots _ hmem
        rw [heq, Option.getD_some]
        omega
    exact inSlots_append.2 ⟨inSlots_of_later le_rfl (hready ▸ hslots), ih hrest hover⟩

/-- A timetable is a plan itself. -/
theorem feasible (h : Timetable interval clock last turns) :
    Feasible interval turns (turns.map fun t => (t.start, t.launches.map (·.2))) where
  fits := by
    rw [List.forall₂_map_right_iff, List.forall₂_same]
    exact fun t ht => ⟨List.length_map _, h.arrival_le_start t ht⟩
  ordered := (List.isChain_map _).2 h.isChain_start
  within := by
    have hready := ready_le_of_inSlots h.inSlots
    intro p hp time htime
    obtain ⟨t, ht, rfl⟩ := List.mem_map.1 hp
    rw [TimedTurn.times_eq] at htime
    exact hready (t.start, time)
      (List.mem_flatMap.2 ⟨t, ht, List.mem_map.2 ⟨time, htime, rfl⟩⟩)
  spaced := by
    have hspaced := spaced_of_inSlots h.inSlots
    rw [List.flatMap_map]
    rwa [List.map_flatMap] at hspaced

/-- No plan for the same turns launches anything earlier. -/
theorem le_of_feasible (h : Timetable interval 0 none turns) {plan : List (Nat × List Nat)}
    (hplan : Feasible interval turns plan) :
    List.Forall₂ (· ≤ ·) ((turns.flatMap TimedTurn.launches).map (·.2)) (plan.flatMap (·.2)) := by
  have hready := released_le hplan.fits (fun p _ => Nat.zero_le p.1) hplan.ordered hplan.within
  rw [← TimedTurn.map_released 0, List.forall₂_map_left_iff]
  exact le_of_inSlots (h.inSlots_released rfl) hready (fun _ _ _ hl => by cases hl) hplan.spaced

/-! ### No interval -/

/-- Without an interval, turns take no time. -/
theorem unpaced (h : Timetable 0 clock last turns) (hlast : last.getD 0 ≤ clock) :
    ∀ t ∈ turns, t.finish = t.start ∧ ∀ l ∈ t.launches, l.2 = t.start := by
  induction turns generalizing clock last with
  | nil => exact fun _ ht => by cases ht
  | cons t rest ih =>
    obtain ⟨hstart, hslots, hprompt, hrest⟩ := cons_iff.1 h
    have hle : last.getD 0 ≤ t.start := by omega
    have htimes : ∀ l ∈ t.launches, l.2 = t.start := fun l hl =>
      eq_ready_of_inSlots hle hslots l.2 (t.times_eq ▸ List.mem_map_of_mem hl)
    rcases t.finish_cases hprompt last with ⟨-, hfinish, heq⟩ | ⟨hmem, heq⟩
    · refine List.forall_mem_cons.2 ⟨⟨hfinish, htimes⟩, ih hrest ?_⟩
      rwa [heq, hfinish]
    · refine List.forall_mem_cons.2 ⟨⟨htimes _ hmem, htimes⟩, ih hrest ?_⟩
      rw [heq, Option.getD_some]

/-- Turns that take no time start when their events arrive. -/
theorem punctual (h : Timetable interval clock last turns)
    (hover : ∀ t ∈ turns, t.finish = t.start) (hclock : ∀ t ∈ turns, clock ≤ t.arrival)
    (hsorted : turns.Pairwise fun t u => t.arrival ≤ u.arrival) :
    ∀ t ∈ turns, t.start = t.arrival := by
  induction turns generalizing clock last with
  | nil => exact fun _ ht => by cases ht
  | cons t rest ih =>
    obtain ⟨hstart, -, -, hrest⟩ := cons_iff.1 h
    obtain ⟨hnow, hlater⟩ := List.forall_mem_cons.1 hover
    obtain ⟨hbefore, hsorted⟩ := List.pairwise_cons.1 hsorted
    have hpunctual : t.start = t.arrival :=
      hstart.trans (Nat.max_eq_left (hclock t List.mem_cons_self))
    refine List.forall_mem_cons.2 ⟨hpunctual, ih hrest hlater (fun u hu => ?_) hsorted⟩
    rw [hnow, hpunctual]
    exact hbefore u hu

end Timetable

end Rollout
