import Mathlib.Data.List.Basic
import Rollout.Run

/-!
What answers of a manager can sway.

A failed command is noted, and a failed stop is handed on to the caller; nothing else comes of an
answer. So two runs on the same events, on clocks with the same horizon, give the same commands at
the same times and publish the same pictures, whatever their managers say. They handle as many
events, and either both return or both break off.
-/
namespace Rollout

variable {σ τ : Type}

/-- Traces that differ in nothing but their notes. -/
structure Trace.Alike (t t' : Trace) : Prop where
  commands : t.commands = t'.commands
  published : t.published = t'.published

namespace Trace.Alike

variable {a b a' b' : Trace}

theorem refl (t : Trace) : Alike t t := ⟨rfl, rfl⟩

theorem symm (h : Alike a b) : Alike b a := ⟨h.commands.symm, h.published.symm⟩

theorem trans (h : Alike a b) (h' : Alike b a') : Alike a a' :=
  ⟨h.commands.trans h'.commands, h.published.trans h'.published⟩

theorem append (h : Alike a a') (h' : Alike b b') : Alike (a ++ b) (a' ++ b') := by
  constructor
  · simp only [Trace.commands, List.filterMap_append]
    exact congrArg₂ _ h.commands h'.commands
  · simp only [Trace.published, List.filterMap_append]
    exact congrArg₂ _ h.published h'.published

end Trace.Alike

namespace Run

open Trace (Alike)

/-- Runs that differ in nothing but their managers. -/
structure Twins (s : Run σ) (s' : Run τ) : Prop where
  scheduler : s.scheduler = s'.scheduler
  pacer : s.pacer = s'.pacer
  clock : s.clock = s'.clock
  published : s.published = s'.published

variable {s : Run σ} {s' : Run τ}

theorem twins_initial (interval : Nat) (manager : σ) (manager' : τ) :
    Twins (initial interval manager) (initial interval manager') := ⟨rfl, rfl, rfl, rfl⟩

/-! ### Single acts -/

/-- An answer leaves a note at most. -/
theorem alike_command (m : Manager σ) (c : Command) (onError : CommandError → Entry) (s : Run σ) :
    Alike (command m c onError s).2 [(s.clock, .command c s.published)] := by
  simp only [command]
  cases (m.perform c s.manager).1 <;> exact ⟨rfl, rfl⟩

theorem Twins.command (h : Twins s s') (m : Manager σ) (m' : Manager τ) (c : Command)
    (onError onError' : CommandError → Entry) :
    Twins (command m c onError s).1 (command m' c onError' s').1 ∧
      Alike (command m c onError s).2 (command m' c onError' s').2 := by
  refine ⟨⟨h.scheduler, h.pacer, h.clock, h.published⟩, ?_⟩
  have hother := alike_command m' c onError' s'
  rw [← h.clock, ← h.published] at hother
  exact (alike_command m c onError s).trans hother.symm

theorem Twins.decline (h : Twins s s') (m : Manager σ) (m' : Manager τ) (offers : List OfferId) :
    Twins (decline m offers s).1 (decline m' offers s').1 ∧
      Alike (decline m offers s).2 (decline m' offers s').2 := by
  simp only [Run.decline]
  split
  · exact ⟨h, .refl _⟩
  · exact h.command m m' ..

theorem Twins.acknowledge (h : Twins s s') (m : Manager σ) (m' : Manager τ) (status : TaskStatus) :
    Twins (acknowledge m status s).1 (acknowledge m' status s').1 ∧
      Alike (acknowledge m status s).2 (acknowledge m' status s').2 := by
  simp only [Run.acknowledge]
  split
  · exact ⟨h, .refl _⟩
  · exact h.command m m' ..

theorem Twins.publish (h : Twins s s') :
    Twins (publish s).1 (publish s').1 ∧ Alike (publish s).2 (publish s').2 := by
  obtain ⟨scheduler, pacer, _, clock, published⟩ := s
  obtain ⟨_, _, _, _, _⟩ := s'
  obtain ⟨rfl, rfl, rfl, rfl⟩ := h
  simp only [Run.publish]
  split
  · exact ⟨⟨rfl, rfl, rfl, rfl⟩, .refl _⟩
  · exact ⟨⟨rfl, rfl, rfl, rfl⟩, .refl _⟩

theorem Twins.stop (h : Twins s s') (m : Manager σ) (m' : Manager τ) :
    Twins (stop m s).1 (stop m' s').1 ∧ Alike (stop m s).2.1 (stop m' s').2.1 := by
  refine ⟨⟨h.scheduler, h.pacer, h.clock, h.published⟩, ?_⟩
  simp only [Run.stop, ← h.clock, ← h.published]
  exact .refl _

/-- The same launches have slots. -/
theorem Twins.launchUntil (h : Twins s s') (m : Manager σ) (m' : Manager τ) (horizon : Nat)
    (ls : List Launch) :
    Twins (launchUntil m horizon s ls).1 (launchUntil m' horizon s' ls).1 ∧
      Alike (launchUntil m horizon s ls).2.1 (launchUntil m' horizon s' ls).2.1 ∧
      (launchUntil m horizon s ls).2.2 = (launchUntil m' horizon s' ls).2.2 := by
  induction ls generalizing s s' with
  | nil => exact ⟨h, .refl _, rfl⟩
  | cons l ls ih =>
    rw [Run.launchUntil, Run.launchUntil, ← h.pacer, ← h.clock]
    cases s.pacer.ready? horizon s.clock with
    | none => exact ⟨h, .refl _, rfl⟩
    | some slot =>
      have hslot : Twins { s with clock := slot.1, pacer := slot.2 }
          { s' with clock := slot.1, pacer := slot.2 } := ⟨h.scheduler, rfl, rfl, h.published⟩
      obtain ⟨hfirst, halike⟩ := hslot.command m m' (.launch l.offerId l.task)
        (launchFailedEntry l) (launchFailedEntry l)
      obtain ⟨hrest, halike', hleft⟩ := ih hfirst
      exact ⟨hrest, halike.append halike', hleft⟩

/-! ### Events -/

/-- Both see the same in an event, or both break off in it. -/
theorem Twins.reactUntil (h : Twins s s') (m : Manager σ) (m' : Manager τ) (d : Dispatcher)
    (horizon : Nat) (e : Event) :
    Twins (reactUntil m d horizon s e).1 (reactUntil m' d horizon s' e).1 ∧
      Alike (reactUntil m d horizon s e).2.1 (reactUntil m' d horizon s' e).2.1 ∧
      (reactUntil m d horizon s e).2.2 = (reactUntil m' d horizon s' e).2.2 := by
  cases e with
  | registered | rescinded => exact ⟨h, .refl _, rfl⟩
  | error message => exact ⟨h, ⟨rfl, rfl⟩, rfl⟩
  | status status =>
    have hobserved : Twins { s with scheduler := (s.scheduler.handleStatus status).1 }
        { s' with scheduler := (s'.scheduler.handleStatus status).1 } :=
      ⟨by rw [h.scheduler], h.pacer, h.clock, h.published⟩
    obtain ⟨hs, halike⟩ := hobserved.acknowledge m m' status
    refine ⟨hs, Alike.append ?_ halike, ?_⟩
    · rw [h.scheduler, h.clock]
      exact .refl _
    · simp only [Run.reactUntil, react, handleStatus, h.scheduler]
  | offers batch =>
    simp only [Run.reactUntil, ← h.scheduler]
    have hoffered : Twins { s with scheduler := (s.scheduler.handleOffers d batch).1 }
        { s' with scheduler := (s.scheduler.handleOffers d batch).1 } :=
      ⟨rfl, h.pacer, h.clock, h.published⟩
    obtain ⟨hs, halike, hleft⟩ := hoffered.launchUntil m m' horizon
      (s.scheduler.handleOffers d batch).2.launches
    -- one of them has launches left exactly if the other one has
    rcases hrun : Run.launchUntil m horizon _ _ with ⟨s₁, acts, left⟩
    rcases hrun' : Run.launchUntil m' horizon _ _ with ⟨s₁', acts', left'⟩
    rw [hrun, hrun'] at hs halike hleft
    obtain rfl : left = left' := hleft
    cases left with
    | nil =>
      obtain ⟨hdeclined, halike'⟩ :=
        Twins.decline hs m m' (s.scheduler.handleOffers d batch).2.declined
      exact ⟨hdeclined, halike.append halike', rfl⟩
    | cons l left => exact ⟨hs, halike, rfl⟩

theorem Twins.conclude (h : Twins s s') (m : Manager σ) (m' : Manager τ) {acts acts' : Trace}
    (halike : Alike acts acts') (decision : Decision) :
    Twins (conclude m s acts decision).1 (conclude m' s' acts' decision).1 ∧
      Alike (conclude m s acts decision).2.1 (conclude m' s' acts' decision).2.1 ∧
      (conclude m s acts decision).2.2.isSome = (conclude m' s' acts' decision).2.2.isSome := by
  obtain ⟨hshown, halike'⟩ := h.publish
  cases decision with
  | proceed => exact ⟨hshown, halike.append halike', rfl⟩
  | terminate =>
    obtain ⟨hstopped, hlast⟩ := hshown.stop m m'
    exact ⟨hstopped, (halike.append halike').append hlast, rfl⟩

theorem Twins.handleUntil (h : Twins s s') (m : Manager σ) (m' : Manager τ) (d : Dispatcher)
    (horizon arrival : Nat) (e : Event) :
    Twins (handleUntil m d horizon s arrival e).1 (handleUntil m' d horizon s' arrival e).1 ∧
      Alike (handleUntil m d horizon s arrival e).2.1 (handleUntil m' d horizon s' arrival e).2.1 ∧
      (handleUntil m d horizon s arrival e).2.2.map Option.isSome =
        (handleUntil m' d horizon s' arrival e).2.2.map Option.isSome := by
  have harrived : Twins { s with clock := max s.clock arrival }
      { s' with clock := max s'.clock arrival } :=
    ⟨h.scheduler, h.pacer, congrArg (max · arrival) h.clock, h.published⟩
  obtain ⟨hs, halike, hdecision⟩ := harrived.reactUntil m m' d horizon e
  simp only [Run.handleUntil]
  rcases hrun : Run.reactUntil m d horizon _ e with ⟨s₁, acts, decision⟩
  rcases hrun' : Run.reactUntil m' d horizon _ e with ⟨s₁', acts', decision'⟩
  rw [hrun, hrun'] at hs halike hdecision
  obtain rfl : decision = decision' := hdecision
  cases decision with
  | none => exact ⟨hs, halike, rfl⟩
  | some decision =>
    obtain ⟨hconcluded, halike', hending⟩ := Twins.conclude hs m m' halike decision
    refine ⟨hconcluded, halike', ?_⟩
    have hclose (ending : Option Ending) :
        (ending.map some).map Option.isSome = if ending.isSome then some true else none := by
      cases ending <;> rfl
    rw [hclose, hclose, hending]

/-! ### Whole runs -/

/-- Managers sway nothing but the notes of a run and how a stop turns out. -/
theorem Twins.followUntil (h : Twins s s') (m : Manager σ) (m' : Manager τ) (d : Dispatcher)
    (closing horizon : Nat) (events : List (Nat × Event)) :
    let course := followUntil m d closing horizon s events
    let course' := followUntil m' d closing horizon s' events
    Twins course.final course'.final ∧ Alike course.trace course'.trace ∧
      course.close.isSome = course'.close.isSome ∧ course.unread = course'.unread := by
  induction events generalizing s s' with
  | nil => exact ⟨⟨h.scheduler, h.pacer, congrArg (max · closing) h.clock, h.published⟩,
      ⟨rfl, rfl⟩, rfl, rfl⟩
  | cons first rest ih =>
    obtain ⟨arrival, e⟩ := first
    obtain ⟨hs, halike, hclose⟩ := h.handleUntil m m' d horizon arrival e
    rw [Run.followUntil, Run.followUntil]
    rcases hrun : Run.handleUntil m d horizon s arrival e with ⟨s₁, acts, close⟩
    rcases hrun' : Run.handleUntil m' d horizon s' arrival e with ⟨s₁', acts', close'⟩
    rw [hrun, hrun'] at hs halike hclose
    cases close with
    | none =>
      obtain rfl : close' = none := Option.map_eq_none_iff.1 hclose.symm
      obtain ⟨hfinal, hlater, hrest⟩ := ih hs
      exact ⟨hfinal, halike.append hlater, hrest⟩
    | some close =>
      obtain ⟨close', rfl, hsame⟩ := Option.map_eq_some_iff.1 hclose.symm
      exact ⟨hs, halike, hsame.symm, rfl⟩

end Run

end Rollout
