import Rollout.Scheduler
import Rollout.Proofs.Completion
import Rollout.Proofs.Dispatch

/-!
Histories of a scheduler: batches of offers and reports, handled one after the other.

A fresh scheduler stays sound along every history: its roster fits together, every known host has a
task between two inputs, and it is done exactly when there are known hosts and all of them are
counted. Once done it stays as it is. The launches of a whole history are those on the fresh offers
of the batches that came before that.
-/
namespace Rollout

/-- What a scheduler is given to handle. -/
inductive Input where
  | offers (batch : List Offer)
  | report (status : TaskStatus)
  deriving DecidableEq

namespace Input

def batch? : Input → Option (List Offer)
  | .offers batch => some batch
  | .report _ => none

def report? : Input → Option TaskStatus
  | .offers _ => none
  | .report status => some status

/-- The input has an offer of a host. -/
def offersHost (host : Hostname) : Input → Bool
  | .offers batch => batch.any (·.hostname == host)
  | .report _ => false

/-- The batches among inputs. -/
def batches (inputs : List Input) : List (List Offer) := inputs.filterMap batch?

/-- All offers of some inputs. -/
def offered (inputs : List Input) : List Offer := (batches inputs).flatten

/-- The reports among inputs. -/
def reports (inputs : List Input) : List TaskStatus := inputs.filterMap report?

/-- The reports that come after the first offer of a host. -/
def reportsSince (host : Hostname) (inputs : List Input) : List TaskStatus :=
  reports (inputs.dropWhile (!·.offersHost host))

theorem reportsSince_cons_of_offersHost {host : Hostname} {input : Input}
    (h : input.offersHost host = true) (rest : List Input) :
    reportsSince host (input :: rest) = reports (input :: rest) := by
  rw [reportsSince, List.dropWhile_cons_of_neg (by simp [h])]

theorem reportsSince_cons_of_not_offersHost {host : Hostname} {input : Input}
    (h : input.offersHost host = false) (rest : List Input) :
    reportsSince host (input :: rest) = reportsSince host rest := by
  rw [reportsSince, List.dropWhile_cons_of_pos (by simp [h]), reportsSince]

theorem offered_cons_offers (batch : List Offer) (rest : List Input) :
    offered (.offers batch :: rest) = batch ++ offered rest := by
  simp [offered, batches, batch?]

end Input

namespace Scheduler

variable (d : Dispatcher)

/-! ### Runs -/

/-- The scheduler after an input. -/
def step (s : Scheduler) : Input → Scheduler
  | .offers batch => (s.handleOffers d batch).1
  | .report status => (s.handleStatus status).1

/-- The scheduler after some inputs. -/
def after (s : Scheduler) (inputs : List Input) : Scheduler := inputs.foldl (step d) s

/-- The answers to the batches among inputs. -/
def dispatches (s : Scheduler) : List Input → List Dispatch
  | [] => []
  | .offers batch :: rest =>
    (s.handleOffers d batch).2 :: dispatches (step d s (.offers batch)) rest
  | .report status :: rest => dispatches (step d s (.report status)) rest

/-- All launches that inputs lead to, in their order. -/
def launches (s : Scheduler) (inputs : List Input) : List Launch :=
  (dispatches d s inputs).flatMap (·.launches)

/-- The offers that are handled before the scheduler is done. -/
def admitted (s : Scheduler) : List Input → List Offer
  | [] => []
  | .offers batch :: rest =>
    if s.done then admitted (step d s (.offers batch)) rest
    else batch ++ admitted (step d s (.offers batch)) rest
  | .report status :: rest => admitted (step d s (.report status)) rest

variable {d} {s : Scheduler}

theorem after_append (s : Scheduler) (a b : List Input) :
    after d s (a ++ b) = after d (after d s a) b := List.foldl_append

/-! ### Single inputs -/

theorem handleOffers_of_done (h : s.done = true) (batch : List Offer) :
    s.handleOffers d batch = (s, .decliningAll batch) := if_pos h

theorem handleOffers_of_not_done (h : s.done = false) (batch : List Offer) :
    s.handleOffers d batch =
      (⟨(d.dispatch s.roster batch).1, false⟩, (d.dispatch s.roster batch).2) := by
  rw [handleOffers, h]
  rfl

theorem handleStatus_of_done (h : s.done = true) (status : TaskStatus) :
    s.handleStatus status = (s, .terminate, []) := if_pos h

theorem handleStatus_of_not_done (h : s.done = false) (status : TaskStatus) :
    s.handleStatus status =
      (⟨(s.roster.absorb status).1, (s.roster.absorb status).1.evaluate = .terminate⟩,
        (s.roster.absorb status).1.evaluate, (s.roster.absorb status).2) := by
  rw [handleStatus, h]
  rfl

/-- A scheduler that is done stays as it is. -/
theorem step_of_done (h : s.done = true) (input : Input) : step d s input = s := by
  cases input with
  | offers batch => rw [step, handleOffers_of_done h]
  | report status => rw [step, handleStatus_of_done h]

theorem moves_step (s : Scheduler) (input : Input) :
    Roster.Moves d s.roster (step d s input).roster := by
  cases hdone : s.done with
  | true =>
    rw [step_of_done hdone]
  | false =>
    cases input with
    | offers batch =>
      rw [step, handleOffers_of_not_done hdone]
      exact (Roster.answered_dispatch d s.roster batch).moves
    | report status =>
      rw [step, handleStatus_of_not_done hdone]
      exact Roster.moves_absorb d s.roster status

theorem moves_after (s : Scheduler) (inputs : List Input) :
    Roster.Moves d s.roster (after d s inputs).roster := by
  induction inputs generalizing s with
  | nil => exact .refl
  | cons input rest ih => exact .trans (moves_step s input) (ih (step d s input))

/-- A decision to end says that the scheduler is done now. -/
theorem handleStatus_eq_terminate_iff (s : Scheduler) (status : TaskStatus) :
    (s.handleStatus status).2.1 = .terminate ↔ (s.handleStatus status).1.done = true := by
  cases hdone : s.done with
  | true => rw [handleStatus_of_done hdone]; exact iff_of_true rfl hdone
  | false => rw [handleStatus_of_not_done hdone]; exact decide_eq_true_iff.symm

/-! ### Soundness -/

/-- What holds of a scheduler between two inputs. -/
structure Sound (d : Dispatcher) (s : Scheduler) : Prop where
  coherent : s.roster.Coherent d
  /-- Every known host has a task. -/
  served : ∀ host, s.registry.isKnown host = true → s.registry.isServiced host = true
  /-- The run is over when there are known hosts and all of them are counted. -/
  latch : s.done = true ↔ 0 < s.registry.knownCount ∧ s.completed = s.registry.knownCount

theorem sound_initial : Sound d .initial where
  coherent := Roster.coherent_empty
  served _ h := by cases h
  latch := by decide

theorem Sound.completed_le_knownCount (hs : Sound d s) : s.completed ≤ s.registry.knownCount :=
  hs.coherent.counted.le.trans (Registry.completedCount_le_knownCount _)

/-- Offers never complete a run: they count no host, and known hosts stay known. -/
theorem sound_handleOffers (hs : Sound d s) (hdone : s.done = false) (batch : List Offer) :
    Sound d ⟨(d.dispatch s.roster batch).1, false⟩ := by
  have ha := Roster.answered_dispatch d s.roster batch
  have hc := Roster.coherent_of_moves hs.coherent ha.moves
  refine ⟨hc, fun host hk => ?_, ?_⟩
  · have hserved : (d.dispatch s.roster batch).1.registry.isServiced host
        = Offer.serve s.registry.isServiced batch host := congrFun ha.served host
    refine hserved.trans (Bool.or_eq_true_iff.2 ?_)
    rcases ha.known host hk with hold | ⟨o, ho, rfl⟩
    · exact .inl (hs.served host hold)
    · exact .inr (List.any_eq_true.2 ⟨o, ho, by simp⟩)
  · refine iff_of_false Bool.false_ne_true fun ⟨hpos, heq⟩ => ?_
    have hle := hs.completed_le_knownCount
    have hmono := Roster.knownCount_le_of_moves ha.moves
    have hsame : (d.dispatch s.roster batch).1.completed = s.completed := ha.completed
    simp only [completed, registry] at hpos heq hle hsame
    have hall : 0 < s.registry.knownCount ∧ s.completed = s.registry.knownCount := by
      simp only [completed, registry]
      omega
    have hold := hs.latch.2 hall
    rw [hdone] at hold
    cases hold

theorem sound_handleStatus (hs : Sound d s) (status : TaskStatus) :
    Sound d ⟨(s.roster.absorb status).1, (s.roster.absorb status).1.evaluate = .terminate⟩ := by
  refine ⟨Roster.coherent_of_moves hs.coherent (Roster.moves_absorb d s.roster status), ?_, ?_⟩
  · intro host hk
    have hold : s.registry.isKnown host = true := (Roster.isKnown_absorb ..).symm.trans hk
    exact (congrFun (Roster.isServiced_absorb ..) host).trans (hs.served host hold)
  · exact decide_eq_true_iff.trans (Roster.evaluate_eq_terminate_iff _)

theorem sound_step (hs : Sound d s) (input : Input) : Sound d (step d s input) := by
  cases hdone : s.done with
  | true => rwa [step_of_done hdone]
  | false =>
    cases input with
    | offers batch =>
      rw [step, handleOffers_of_not_done hdone]
      exact sound_handleOffers hs hdone batch
    | report status =>
      rw [step, handleStatus_of_not_done hdone]
      exact sound_handleStatus hs status

theorem sound_after (hs : Sound d s) (inputs : List Input) : Sound d (after d s inputs) := by
  induction inputs generalizing s with
  | nil => exact hs
  | cons input rest ih => exact ih (sound_step hs input)

theorem Sound.isKnown_eq_isServiced (hs : Sound d s) (host : Hostname) :
    s.registry.isKnown host = s.registry.isServiced host := by
  cases hk : s.registry.isKnown host with
  | true => exact (hs.served host hk).symm
  | false =>
    have hnone : s.registry.status? host = none := by
      rwa [Registry.isKnown_eq, Option.isSome_eq_false_iff, Option.isNone_iff_eq_none] at hk
    rw [Registry.isServiced, hnone]

/-! ### After the end -/

theorem after_of_done (h : s.done = true) (inputs : List Input) : after d s inputs = s := by
  induction inputs with
  | nil => rfl
  | cons input rest ih =>
    rw [after, List.foldl_cons, step_of_done h]
    exact ih

/-- Once done, a scheduler declines every offer of every batch. -/
theorem dispatches_of_done (h : s.done = true) (inputs : List Input) :
    dispatches d s inputs = (Input.batches inputs).map .decliningAll := by
  induction inputs with
  | nil => rfl
  | cons input rest ih =>
    cases input with
    | offers batch =>
      rw [dispatches, step_of_done h, ih, handleOffers_of_done h]
      rfl
    | report status =>
      rw [dispatches, step_of_done h, ih]
      rfl

theorem launches_of_done (h : s.done = true) (inputs : List Input) : launches d s inputs = [] := by
  rw [launches, dispatches_of_done h, List.flatMap_map, List.flatMap_eq_nil_iff]
  exact fun _ _ => rfl

theorem admitted_of_done (h : s.done = true) (inputs : List Input) : admitted d s inputs = [] := by
  induction inputs with
  | nil => rfl
  | cons input rest ih =>
    cases input with
    | offers batch => rw [admitted, if_pos h, step_of_done h, ih]
    | report status => rw [admitted, step_of_done h, ih]

/-! ### Admitted offers -/

/-- The admitted offers are those of the batches that come before the end. -/
theorem mem_admitted_iff {o : Offer} {inputs : List Input} : o ∈ admitted d s inputs ↔
    ∃ before batch later, inputs = before ++ .offers batch :: later ∧
      (after d s before).done = false ∧ o ∈ batch := by
  induction inputs generalizing s with
  | nil => simp [admitted]
  | cons input rest ih =>
    constructor
    · intro ho
      have later : o ∈ admitted d (step d s input) rest →
          ∃ before batch later, input :: rest = before ++ .offers batch :: later ∧
            (after d s before).done = false ∧ o ∈ batch := by
        intro hrest
        obtain ⟨before, batch, later, rfl, hdone, hmem⟩ := ih.1 hrest
        exact ⟨input :: before, batch, later, rfl, hdone, hmem⟩
      cases input with
      | report status => exact later ho
      | offers batch =>
        rw [admitted] at ho
        split at ho
        · exact later ho
        · next hdone =>
          rcases List.mem_append.1 ho with hnow | hrest
          · exact ⟨[], batch, rest, rfl, Bool.eq_false_of_not_eq_true hdone, hnow⟩
          · exact later hrest
    · rintro ⟨before, batch, later, heq, hdone, hmem⟩
      cases before with
      | nil =>
        obtain ⟨rfl, rfl⟩ := List.cons.inj heq
        have hopen : ¬s.done = true := Bool.eq_false_iff.1 hdone
        rw [admitted, if_neg hopen]
        exact List.mem_append_left _ hmem
      | cons first before =>
        obtain ⟨rfl, rfl⟩ := List.cons.inj heq
        have hrest := ih.2 ⟨before, batch, later, rfl, hdone, hmem⟩
        cases input with
        | report status => exact hrest
        | offers _ =>
          rw [admitted]
          split
          · exact hrest
          · exact List.mem_append_right _ hrest

/-- What is admitted is what comes first. -/
theorem admitted_prefix_offered (s : Scheduler) (inputs : List Input) :
    admitted d s inputs <+: Input.offered inputs := by
  induction inputs generalizing s with
  | nil => exact List.nil_prefix
  | cons input rest ih =>
    cases input with
    | report status => exact ih _
    | offers batch =>
      rw [admitted, Input.offered_cons_offers]
      split
      · next h => rw [step_of_done h, admitted_of_done h]; exact List.nil_prefix
      · exact (List.prefix_append_right_inj batch).2 (ih _)

/-! ### Served hosts and launches -/

theorem isServiced_step_report (s : Scheduler) (status : TaskStatus) :
    (step d s (.report status)).registry.isServiced = s.registry.isServiced := by
  cases hdone : s.done with
  | true => rw [step_of_done hdone]
  | false =>
    rw [step, handleStatus_of_not_done hdone]
    exact Roster.isServiced_absorb s.roster status

theorem drawn_step_report (s : Scheduler) (status : TaskStatus) :
    (step d s (.report status)).roster.drawn = s.roster.drawn := by
  cases hdone : s.done with
  | true => rw [step_of_done hdone]
  | false =>
    rw [step, handleStatus_of_not_done hdone]
    exact Roster.drawn_absorb s.roster status

theorem answered_step_offers (h : s.done = false) (batch : List Offer) :
    s.roster.Answered d batch (step d s (.offers batch)).roster := by
  rw [step, handleOffers_of_not_done h]
  exact Roster.answered_dispatch d s.roster batch

/-- The hosts with a task are those of the admitted offers. -/
theorem isServiced_after (s : Scheduler) (inputs : List Input) :
    (after d s inputs).registry.isServiced
      = Offer.serve s.registry.isServiced (admitted d s inputs) := by
  induction inputs generalizing s with
  | nil => exact Offer.serve_nil.symm
  | cons input rest ih =>
    refine (ih (step d s input)).trans ?_
    cases input with
    | report status => rw [isServiced_step_report]; rfl
    | offers batch =>
      cases hdone : s.done with
      | true => simp only [admitted, hdone, if_true, step_of_done hdone]
      | false =>
        have hserved := (answered_step_offers (d := d) hdone batch).served
        simp only [registry, admitted, hdone, Bool.false_eq_true, if_false, Offer.serve_append]
        rw [hserved]

theorem launches_cons_offers (s : Scheduler) (batch : List Offer) (rest : List Input) :
    launches d s (.offers batch :: rest) = (s.handleOffers d batch).2.launches
      ++ launches d (step d s (.offers batch)) rest := rfl

/-- The launches of a history are those on the fresh ones of its admitted offers, with the
identifiers in their order. -/
theorem launches_eq (s : Scheduler) (inputs : List Input) : launches d s inputs
    = d.launches s.roster.drawn (Offer.fresh s.registry.isServiced (admitted d s inputs)) := by
  induction inputs generalizing s with
  | nil => rfl
  | cons input rest ih =>
    have hrest := ih (step d s input)
    cases input with
    | report status =>
      rw [isServiced_step_report, drawn_step_report] at hrest
      exact hrest
    | offers batch =>
      rw [launches_cons_offers, hrest]
      cases hdone : s.done with
      | true =>
        simp only [handleOffers_of_done hdone, step_of_done hdone, Dispatch.decliningAll, admitted,
          hdone, if_true, List.nil_append]
      | false =>
        have ha := answered_step_offers (d := d) hdone batch
        simp only [registry, ha.served, ha.drawn, handleOffers_of_not_done hdone,
          Roster.dispatch_snd, admitted, hdone, Bool.false_eq_true, if_false]
        rw [Offer.fresh_append, Dispatcher.launches_append]

/-- Launches are for hosts without a task, on admitted offers. -/
theorem mem_launches {l : Launch} {inputs : List Input} (h : l ∈ launches d s inputs) :
    s.registry.isServiced l.task.hostname = false ∧
      ∃ o ∈ admitted d s inputs, o.hostname = l.task.hostname := by
  rw [launches_eq] at h
  obtain ⟨o, ho, hhost⟩ := Dispatcher.hostname_of_mem_launches h
  exact Offer.mem_fresh_hosts.1 ⟨o, ho, hhost⟩

end Scheduler

/-! ### Sample inputs -/

namespace Sample

/-- A dispatcher that never draws an identifier twice. -/
def dispatcher : Dispatcher :=
  .ofPayload ⟨"http://repo.local/cni", "install.py", "python", "a", "b"⟩
    fun n => String.ofList (List.replicate n 't')

theorem distinct_dispatcher (n : Nat) : dispatcher.Distinct n := by
  intro i _ j _ heq
  have hlist := String.ofList_injective heq
  simpa using congrArg List.length hlist

/-- An offer of a host by the agent of that name, without resources. -/
def offer (id : OfferId) (host : Hostname) : Offer := ⟨id, host, host, []⟩

/-- A report about the task that was launched after so many others. -/
def report (n : Nat) (state : TaskState) : Input := .report (.bare (dispatcher.taskId n) state)

end Sample

end Rollout
