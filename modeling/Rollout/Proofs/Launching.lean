import Rollout.Proofs.History

/-!
Which offers are launched on.

Over a whole history each host that is offered before the end has exactly one launch, on its first
offer, and no other host has any. Within a batch each offer gets one answer in its place.
-/
namespace Rollout.Scheduler

variable {d : Dispatcher} {s : Scheduler} {inputs : List Input}

/-- A host occurs in a batch that is handled before the scheduler is done. -/
def Admits (d : Dispatcher) (inputs : List Input) (host : Hostname) : Prop :=
  ∃ before batch later, inputs = before ++ .offers batch :: later ∧
    (after d .initial before).done = false ∧ ∃ o ∈ batch, o.hostname = host

theorem admits_iff {host : Hostname} :
    Admits d inputs host ↔ ∃ o ∈ admitted d .initial inputs, o.hostname = host := by
  constructor
  · rintro ⟨before, batch, later, heq, hdone, o, ho, hhost⟩
    exact ⟨o, mem_admitted_iff.2 ⟨before, batch, later, heq, hdone, ho⟩, hhost⟩
  · rintro ⟨o, ho, hhost⟩
    obtain ⟨before, batch, later, heq, hdone, hmem⟩ := mem_admitted_iff.1 ho
    exact ⟨before, batch, later, heq, hdone, o, hmem, hhost⟩

/-- The first admitted offer of a host is the first one of all. -/
theorem find?_offered {p : Offer → Bool} {o : Offer}
    (h : (admitted d s inputs).find? p = some o) : (Input.offered inputs).find? p = some o := by
  obtain ⟨rest, hrest⟩ := admitted_prefix_offered (d := d) s inputs
  rw [← hrest, List.find?_append, h, Option.some_or]

theorem exists_find?_admitted {host : Hostname}
    (h : ∃ o ∈ admitted d s inputs, o.hostname = host) :
    ∃ o, (admitted d s inputs).find? (·.hostname == host) = some o ∧ o.hostname = host := by
  obtain ⟨o, ho, hhost⟩ := h
  cases hf : (admitted d s inputs).find? (·.hostname == host) with
  | none => exact absurd (by simp [hhost]) (List.find?_eq_none.1 hf o ho)
  | some first => exact ⟨first, rfl, by simpa using List.find?_some hf⟩

/-- How many hosts are offered before the first offer of a host. -/
def hostsBefore (host : Hostname) (os : List Offer) : Nat :=
  ((os.map (·.hostname)).takeWhile (· != host)).toFinset.card

theorem newBefore_eq_hostsBefore (host : Hostname) (os : List Offer) :
    Dispatcher.newBefore (fun _ => false) host os = hostsBefore host os := by
  rw [Dispatcher.newBefore, hostsBefore]
  simp

/-- What comes after an offer of a host does not count. -/
theorem hostsBefore_append {host : Hostname} {a : List Offer} (h : ∃ o ∈ a, o.hostname = host)
    (b : List Offer) : hostsBefore host (a ++ b) = hostsBefore host a := by
  have hstop : ∃ x ∈ a.map (·.hostname), ¬(x != host) = true := by simpa using h
  rw [hostsBefore, List.map_append, List.takeWhile_append, if_neg, hostsBefore]
  intro hlen
  obtain ⟨x, hx, hno⟩ := hstop
  rw [← (List.takeWhile_prefix (· != host)).eq_of_length hlen] at hx
  exact hno (List.mem_takeWhile_imp (p := (· != host)) hx)

/-- What a fresh scheduler comes to know are the admitted hosts. -/
theorem isKnown_after_initial {host : Hostname} :
    (after d .initial inputs).registry.isKnown host = true ↔
      ∃ o ∈ admitted d .initial inputs, o.hostname = host := by
  rw [(sound_after sound_initial inputs).isKnown_eq_isServiced, isServiced_after]
  exact List.any_eq_true.trans (by simp)

/-- From a fresh scheduler on, an admitted host has one launch, on its first offer and with the
identifier that follows those of the hosts before it. -/
theorem filter_launches_initial {host : Hostname} {o : Offer}
    (h : (admitted d .initial inputs).find? (·.hostname == host) = some o) :
    (launches d .initial inputs).filter (·.task.hostname == host)
      = [d.launch (hostsBefore host (Input.offered inputs)) o] := by
  have hnone : Scheduler.initial.registry.isServiced = fun _ => false := rfl
  have hmem : ∃ o ∈ admitted d .initial inputs, o.hostname = host :=
    ⟨o, List.mem_of_find?_eq_some h, by simpa using List.find?_some h⟩
  obtain ⟨rest, hrest⟩ := admitted_prefix_offered (d := d) .initial inputs
  rw [launches_eq, hnone, Dispatcher.filter_launches_eq_singleton rfl h,
    newBefore_eq_hostsBefore, ← hrest, hostsBefore_append hmem]
  exact congrArg (fun n => [d.launch n o]) (Nat.zero_add _)

/-- Only admitted hosts are launched for. -/
theorem admits_of_mem_launches {l : Launch} (h : l ∈ launches d .initial inputs) :
    Admits d inputs l.task.hostname := admits_iff.2 (mem_launches h).2

/-- Every batch is answered offer by offer. -/
theorem answers_dispatches (s : Scheduler) (inputs : List Input) :
    List.Forall₂ (fun batch a => Dispatcher.Answers batch a.launches a.declined)
      (Input.batches inputs) (dispatches d s inputs) := by
  induction inputs generalizing s with
  | nil => exact .nil
  | cons input rest ih =>
    cases input with
    | report status => exact ih _
    | offers batch =>
      refine .cons ?_ (ih _)
      cases hdone : s.done with
      | true =>
        rw [handleOffers_of_done hdone]
        exact Dispatcher.answers_decliningAll batch
      | false =>
        rw [handleOffers_of_not_done hdone, Roster.dispatch_snd]
        exact Dispatcher.answers_launches ..

/-- Every host offered before the end is launched for exactly once, by the first of all its offers;
no other host is ever launched for; and every offer of every batch has its own answer, in order. -/
theorem launched_once_on_first_offer (d : Dispatcher) (inputs : List Input) :
    (∀ host, Admits d inputs host → ∃ o l,
      (Input.offered inputs).find? (·.hostname == host) = some o ∧
      (launches d .initial inputs).filter (·.task.hostname == host) = [l] ∧
      l.offerId = o.id ∧ l.task.agentId = o.agentId ∧ l.task.hostname = o.hostname) ∧
    (∀ l ∈ launches d .initial inputs, Admits d inputs l.task.hostname) ∧
    List.Forall₂ (fun batch a => Dispatcher.Answers batch a.launches a.declined)
      (Input.batches inputs) (dispatches d .initial inputs) := by
  refine ⟨fun host h => ?_, fun l hl => admits_of_mem_launches hl,
    answers_dispatches .initial inputs⟩
  obtain ⟨o, ho, hhost⟩ := exists_find?_admitted (admits_iff.1 h)
  exact ⟨o, _, find?_offered ho, filter_launches_initial ho, rfl, rfl, rfl⟩

/-- A host that is offered twice in its first batch, again after a loss and once more after the end
has one launch, on the first of these offers. -/
theorem launched_once_on_first_offer_repeated :
    let inputs : List Input :=
      [.offers [Sample.offer "o1" "h1", Sample.offer "o2" "h1", Sample.offer "o1" "h2"],
        Sample.report 0 .lost, .offers [Sample.offer "o3" "h1"], Sample.report 0 .finished,
        Sample.report 1 .finished, .offers [Sample.offer "o4" "h1", Sample.offer "o5" "h3"]]
    Admits Sample.dispatcher inputs "h1" ∧
      ∃ l, (launches Sample.dispatcher .initial inputs).filter (·.task.hostname == "h1") = [l] ∧
        l.offerId = "o1" := by
  intro inputs
  have hadmits : Admits Sample.dispatcher inputs "h1" :=
    ⟨[], _, _, rfl, rfl, Sample.offer "o1" "h1", List.mem_cons_self, rfl⟩
  obtain ⟨hlaunched, -, -⟩ := launched_once_on_first_offer Sample.dispatcher inputs
  obtain ⟨o, l, hfirst, hone, hoffer, -, -⟩ := hlaunched "h1" hadmits
  have ho : some o = some (Sample.offer "o1" "h1") := hfirst.symm
  exact ⟨hadmits, l, hone, hoffer.trans (congrArg Offer.id (Option.some.inj ho))⟩

end Rollout.Scheduler
