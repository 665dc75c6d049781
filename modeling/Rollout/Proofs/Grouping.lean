import Rollout.Proofs.History
import Rollout.Proofs.Recording

/-!
Batches in other groups.

A joined batch makes all of its hosts known before the first of its offers is answered, and batches
that come one by one do not. As only the launches of a batch are seen in the end, it makes no
difference how offers that come one after the other are grouped into batches: the same ones are
launched on, with the same identifiers, and the scheduler ends up the same.
-/
namespace Rollout

/-- The answers to one batch, followed by those to the next. -/
instance : Append Dispatch := ⟨fun a b => ⟨a.launches ++ b.launches, a.declined ++ b.declined⟩⟩

namespace Dispatch

theorem launches_foldr (ds : List Dispatch) :
    (ds.foldr (· ++ ·) empty).launches = ds.flatMap (·.launches) := by
  induction ds with
  | nil => rfl
  | cons d rest ih => rw [List.flatMap_cons, ← ih]; rfl

theorem declined_foldr (ds : List Dispatch) :
    (ds.foldr (· ++ ·) empty).declined = ds.flatMap (·.declined) := by
  induction ds with
  | nil => rfl
  | cons d rest ih => rw [List.flatMap_cons, ← ih]; rfl

theorem decliningAll_append (a b : List Offer) :
    decliningAll (a ++ b) = decliningAll a ++ decliningAll b :=
  congrArg (Dispatch.mk []) List.map_append

end Dispatch

/-- A joined batch is answered like its parts, one after the other. -/
theorem Roster.dispatch_append (d : Dispatcher) (r : Roster) (a b : List Offer) :
    d.dispatch r (a ++ b) = ((d.dispatch (d.dispatch r a).1 b).1,
      (d.dispatch r a).2 ++ (d.dispatch (d.dispatch r a).1 b).2) := by
  have ha := answered_dispatch d r a
  have hanswers : (d.dispatch r (a ++ b)).2
      = (d.dispatch r a).2 ++ (d.dispatch (d.dispatch r a).1 b).2 := by
    rw [dispatch_snd, dispatch_snd, dispatch_snd, ha.served, ha.drawn, Offer.fresh_append,
      Offer.stale_append, Dispatcher.launches_append, List.map_append]
    rfl
  refine Prod.ext ?_ hanswers
  calc (d.dispatch r (a ++ b)).1
      = r.recordAll ((d.dispatch r a).2 ++ (d.dispatch (d.dispatch r a).1 b).2).launches := by
        rw [dispatch_fst, hanswers]
    _ = (r.recordAll (d.dispatch r a).2.launches).recordAll
          (d.dispatch (d.dispatch r a).1 b).2.launches := recordAll_append r _ _
    _ = (d.dispatch (d.dispatch r a).1 b).1 := by rw [← dispatch_fst d r a, ← dispatch_fst]

namespace Scheduler

variable {d : Dispatcher}

theorem handleOffers_append (d : Dispatcher) (s : Scheduler) (a b : List Offer) :
    s.handleOffers d (a ++ b) = (((s.handleOffers d a).1.handleOffers d b).1,
      (s.handleOffers d a).2 ++ ((s.handleOffers d a).1.handleOffers d b).2) := by
  cases hdone : s.done with
  | true =>
    rw [handleOffers_of_done hdone, handleOffers_of_done hdone, handleOffers_of_done hdone,
      Dispatch.decliningAll_append]
  | false =>
    rw [handleOffers_of_not_done hdone, handleOffers_of_not_done hdone,
      handleOffers_of_not_done rfl, Roster.dispatch_append]

theorem handleOffers_nil (d : Dispatcher) (s : Scheduler) :
    s.handleOffers d [] = (s, .empty) := by
  cases hdone : s.done with
  | true => rw [handleOffers_of_done hdone]; rfl
  | false =>
    rw [handleOffers_of_not_done hdone]
    obtain ⟨roster, done⟩ := s
    cases hdone
    rfl

/-- Batches that come one by one are answered like the one that joins them. -/
theorem handleOffers_flatten (d : Dispatcher) (s : Scheduler) (batches : List (List Offer)) :
    (after d s (batches.map .offers), (dispatches d s (batches.map .offers)).foldr (· ++ ·) .empty)
      = s.handleOffers d batches.flatten := by
  induction batches generalizing s with
  | nil => exact (handleOffers_nil d s).symm
  | cons batch rest ih =>
    have hrest := ih (s.handleOffers d batch).1
    rw [List.flatten_cons, handleOffers_append, ← hrest]
    rfl

/-- A joined batch is handled like its parts, one after the other: the launches and the declined
offers are those of the parts, in their order, and the scheduler is the same afterwards. So any
batches that come one after the other are handled like the one batch that they make up, and no
grouping changes which offers are used. -/
theorem grouping_irrelevant (d : Dispatcher) (s : Scheduler) (a b : List Offer) :
    let first := s.handleOffers d a
    let second := first.1.handleOffers d b
    let joined := s.handleOffers d (a ++ b)
    (joined.2.launches = first.2.launches ++ second.2.launches ∧
      joined.2.declined = first.2.declined ++ second.2.declined ∧
      joined.1 = second.1 ∧ joined.1.phase = second.1.phase) ∧
    ∀ batches : List (List Offer),
      let inputs := batches.map Input.offers
      let whole := s.handleOffers d batches.flatten
      launches d s inputs = whole.2.launches ∧
      (dispatches d s inputs).flatMap (·.declined) = whole.2.declined ∧
      after d s inputs = whole.1 ∧ (after d s inputs).phase = whole.1.phase := by
  intro first second joined
  have hjoined : joined = (second.1, first.2 ++ second.2) := handleOffers_append d s a b
  refine ⟨?_, fun batches => ?_⟩
  · rw [hjoined]
    exact ⟨rfl, rfl, rfl, rfl⟩
  · intro inputs whole
    have hwhole : (after d s inputs, (dispatches d s inputs).foldr (· ++ ·) .empty) = whole :=
      handleOffers_flatten d s batches
    rw [← hwhole]
    exact ⟨(Dispatch.launches_foldr _).symm, (Dispatch.declined_foldr _).symm, rfl, rfl⟩

end Scheduler

end Rollout
