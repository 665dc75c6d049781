import Rollout.Proofs.Roster
import Mathlib.Data.List.TakeWhile

/-!
What becomes of a batch of offers.

The offers that are launched on are the fresh ones: those of a host that is not served yet, the
first one of each host. They get the next identifiers in their order, and all other offers are
declined. This is how the answers to a batch are known without looking at the registry, and how the
answers to one batch after the other come out as those to one long batch.
-/
namespace Rollout

namespace Offer

/-- The hosts served so far, with the hosts of some offers. -/
def serve (served : Hostname → Bool) (offers : List Offer) : Hostname → Bool :=
  fun host => served host || offers.any (·.hostname == host)

/-- The offers of hosts that are not served yet, the first one of each host. -/
def fresh (served : Hostname → Bool) : List Offer → List Offer
  | [] => []
  | o :: rest =>
    if served o.hostname then fresh served rest else o :: fresh (serve served [o]) rest

/-- The offers that are not fresh. -/
def stale (served : Hostname → Bool) : List Offer → List Offer
  | [] => []
  | o :: rest =>
    if served o.hostname then o :: stale served rest else stale (serve served [o]) rest

variable {served : Hostname → Bool}

theorem serve_nil : serve served [] = served := by
  funext host
  simp [serve]

theorem serve_append (a b : List Offer) : serve served (a ++ b) = serve (serve served a) b := by
  funext host
  simp [serve, Bool.or_assoc]

theorem serve_cons (o : Offer) (rest : List Offer) :
    serve served (o :: rest) = serve (serve served [o]) rest := serve_append [o] rest

/-- Offers of hosts that are served already serve no other host. -/
theorem serve_of_served {o : Offer} (h : served o.hostname = true) : serve served [o] = served := by
  funext host
  by_cases heq : o.hostname = host
  · subst heq
    simp [serve, h]
  · simp [serve, heq]

theorem serve_self (served : Hostname → Bool) (o : Offer) :
    serve served [o] o.hostname = true := by simp [serve]

theorem serve_of_ne {o : Offer} {host : Hostname} (h : o.hostname ≠ host) :
    serve served [o] host = served host := by simp [serve, h]

theorem fresh_append (a b : List Offer) :
    fresh served (a ++ b) = fresh served a ++ fresh (serve served a) b := by
  induction a generalizing served with
  | nil => rw [serve_nil]; rfl
  | cons o rest ih =>
    rw [List.cons_append, fresh, fresh, serve_cons o rest]
    split
    · next h => rw [ih, serve_of_served h]
    · rw [ih, List.cons_append]

theorem stale_append (a b : List Offer) :
    stale served (a ++ b) = stale served a ++ stale (serve served a) b := by
  induction a generalizing served with
  | nil => rw [serve_nil]; rfl
  | cons o rest ih =>
    rw [List.cons_append, stale, stale, serve_cons o rest]
    split
    · next h => rw [ih, serve_of_served h, List.cons_append]
    · rw [ih]

/-- Fresh offers make up all hosts that become served. -/
theorem mem_fresh_hosts {host : Hostname} {os : List Offer} :
    (∃ o ∈ fresh served os, o.hostname = host) ↔
      served host = false ∧ ∃ o ∈ os, o.hostname = host := by
  induction os generalizing served with
  | nil => simp [fresh]
  | cons o rest ih =>
    rw [fresh]
    by_cases hs : served o.hostname = true
    · rw [if_pos hs, ih]
      constructor
      · rintro ⟨hnot, a, ha, rfl⟩
        exact ⟨hnot, a, List.mem_cons_of_mem _ ha, rfl⟩
      · rintro ⟨hnot, a, ha, rfl⟩
        rcases List.mem_cons.1 ha with rfl | ha
        · rw [hs] at hnot
          cases hnot
        · exact ⟨hnot, a, ha, rfl⟩
    · rw [if_neg hs]
      by_cases heq : o.hostname = host
      · subst heq
        have hnot : served o.hostname = false := Bool.eq_false_of_not_eq_true hs
        exact iff_of_true ⟨o, List.mem_cons_self, rfl⟩ ⟨hnot, o, List.mem_cons_self, rfl⟩
      · have := @ih (serve served [o])
        rw [serve_of_ne heq] at this
        simpa [heq] using this

end Offer

namespace Dispatcher

/-- The launch on an offer after so many others. -/
def launch (d : Dispatcher) (drawn : Nat) (o : Offer) : Launch := ⟨o.id, d.buildTask drawn o⟩

/-- The launches on some offers, one after the other. -/
def launches (d : Dispatcher) (drawn : Nat) : List Offer → List Launch
  | [] => []
  | o :: rest => d.launch drawn o :: launches d (drawn + 1) rest

variable {d : Dispatcher}

theorem launches_append (n : Nat) (a b : List Offer) :
    d.launches n (a ++ b) = d.launches n a ++ d.launches (n + a.length) b := by
  induction a generalizing n with
  | nil => rfl
  | cons o rest ih =>
    rw [List.cons_append, launches, launches, ih, List.cons_append, List.length_cons,
      Nat.add_right_comm]
    rfl

/-- Launches are for the hosts of the offers. -/
theorem map_hostname_launches (n : Nat) (os : List Offer) :
    (d.launches n os).map (·.task.hostname) = os.map (·.hostname) := by
  induction os generalizing n with
  | nil => rfl
  | cons o rest ih => rw [launches, List.map_cons, ih, List.map_cons]; rfl

/-- A launch for a host comes from a fresh offer of it. -/
theorem hostname_of_mem_launches {n : Nat} {os : List Offer} {l : Launch}
    (h : l ∈ d.launches n os) : ∃ o ∈ os, o.hostname = l.task.hostname := by
  have hmem := List.mem_map_of_mem (f := (·.task.hostname)) h
  rwa [map_hostname_launches, List.mem_map] at hmem

theorem filter_launches_eq_nil {served : Hostname → Bool} {host : Hostname}
    (h : served host = true) (n : Nat) (os : List Offer) :
    (d.launches n (Offer.fresh served os)).filter (·.task.hostname == host) = [] := by
  rw [List.filter_eq_nil_iff]
  intro l hl heq
  obtain ⟨o, ho, hhost⟩ := hostname_of_mem_launches hl
  have hnot := (Offer.mem_fresh_hosts.1 ⟨o, ho, hhost.trans (beq_iff_eq.1 heq)⟩).1
  rw [h] at hnot
  cases hnot

/-- How many hosts that are not served come before the first offer of a host. -/
def newBefore (served : Hostname → Bool) (host : Hostname) (os : List Offer) : Nat :=
  (((os.map (·.hostname)).takeWhile (· != host)).filter (!served ·)).toFinset.card

theorem newBefore_cons_self (served : Hostname → Bool) (o : Offer) (rest : List Offer) :
    newBefore served o.hostname (o :: rest) = 0 := by
  simp [newBefore]

theorem newBefore_cons_of_served {served : Hostname → Bool} {host : Hostname} {o : Offer}
    (hne : o.hostname ≠ host) (h : served o.hostname = true) (rest : List Offer) :
    newBefore served host (o :: rest) = newBefore served host rest := by
  simp [newBefore, hne, h]

theorem newBefore_cons_of_new {served : Hostname → Bool} {host : Hostname} {o : Offer}
    (hne : o.hostname ≠ host) (h : ¬served o.hostname = true) (rest : List Offer) :
    newBefore served host (o :: rest) = newBefore (Offer.serve served [o]) host rest + 1 := by
  have hset : ((((o :: rest).map (·.hostname)).takeWhile (· != host)).filter (!served ·)).toFinset
      = insert o.hostname ((((rest.map (·.hostname)).takeWhile (· != host)).filter
          (!Offer.serve served [o] ·)).toFinset) := by
    ext other
    by_cases heq : other = o.hostname
    · subst heq
      simp [hne, h]
    · simp [hne, h, heq, Offer.serve_of_ne (Ne.symm heq)]
  rw [newBefore, hset, Finset.card_insert_of_notMem, newBefore]
  simp [Offer.serve_self]

/-- Among the launches on offers, a host that is not served yet has one, on its first offer. -/
theorem filter_launches_eq_singleton {served : Hostname → Bool} {host : Hostname} {o : Offer}
    {os : List Offer} (h : served host = false) (ho : os.find? (·.hostname == host) = some o)
    (n : Nat) : (d.launches n (Offer.fresh served os)).filter (·.task.hostname == host)
      = [d.launch (n + newBefore served host os) o] := by
  induction os generalizing served n with
  | nil => cases ho
  | cons a rest ih =>
    by_cases heq : a.hostname = host
    · have hnew : ¬served a.hostname = true := by simp [heq, h]
      rw [List.find?_cons_of_pos (by simp [heq]), Option.some.injEq] at ho
      subst heq ho
      rw [Offer.fresh, if_neg hnew, launches, List.filter_cons_of_pos (by simp [launch, buildTask]),
        filter_launches_eq_nil (Offer.serve_self served a), newBefore_cons_self]
      rfl
    · rw [List.find?_cons_of_neg (by simp [heq])] at ho
      by_cases hs : served a.hostname = true
      · rw [Offer.fresh, if_pos hs, ih h ho, newBefore_cons_of_served heq hs]
      · have hrest : Offer.serve served [a] host = false := by rw [Offer.serve_of_ne heq, h]
        rw [Offer.fresh, if_neg hs, launches,
          List.filter_cons_of_neg (by simp [launch, buildTask, heq]), ih hrest ho,
          newBefore_cons_of_new heq hs, Nat.add_assoc, Nat.add_comm 1]

/-! ### Answers in the order of the offers -/

/-- The answers to some offers, one to each in order: a task launched on it for its host, or its
identifier handed back. -/
inductive Answers : List Offer → List Launch → List OfferId → Prop where
  | nil : Answers [] [] []
  | launch {o : Offer} {l : Launch} {os : List Offer} {ls : List Launch} {ids : List OfferId}
      (offer : l.offerId = o.id) (agent : l.task.agentId = o.agentId)
      (host : l.task.hostname = o.hostname) (rest : Answers os ls ids) :
      Answers (o :: os) (l :: ls) ids
  | decline {o : Offer} {os : List Offer} {ls : List Launch} {ids : List OfferId}
      (rest : Answers os ls ids) : Answers (o :: os) ls (o.id :: ids)

theorem answers_launches (served : Hostname → Bool) (n : Nat) (os : List Offer) :
    Answers os (d.launches n (Offer.fresh served os)) ((Offer.stale served os).map (·.id)) := by
  induction os generalizing served n with
  | nil => exact .nil
  | cons o rest ih =>
    rw [Offer.fresh, Offer.stale]
    split
    · exact .decline (ih served n)
    · exact .launch rfl rfl rfl (ih _ (n + 1))

theorem answers_decliningAll (os : List Offer) : Answers os [] (os.map (·.id)) := by
  induction os with
  | nil => exact .nil
  | cons o rest ih => exact .decline ih

end Dispatcher

namespace Roster

open Offer (fresh stale serve)

variable {d : Dispatcher} {r : Roster}

/-! ### Observing the hosts of a batch -/

theorem status?_observeAll (r : Roster) (os : List Offer) (host : Hostname) :
    (r.observeAll os).registry.status? host = (r.registry.status? host).or
      (if os.any (·.hostname == host) then some .seen else none) := by
  induction os generalizing r with
  | nil => simp [observeAll]
  | cons o rest ih =>
    have step := ih { r with registry := (r.registry.observe o.hostname).1 }
    rw [Registry.status?_observe, Option.or_assoc] at step
    refine step.trans ?_
    by_cases heq : o.hostname = host
    · simp [heq]
    · have hne : ¬host = o.hostname := fun h => heq h.symm
      simp [heq, hne]

theorem moves_observeAll (r : Roster) (os : List Offer) : Moves d r (r.observeAll os) := by
  induction os generalizing r with
  | nil => exact .refl
  | cons o rest ih =>
    refine .trans ?_ (ih { r with registry := (r.registry.observe o.hostname).1 })
    cases hs : r.registry.status? o.hostname with
    | none =>
      rw [Registry.observe, Registry.isKnown_eq, hs]
      exact .single (.observe hs)
    | some s =>
      rw [Registry.observe, Registry.isKnown_eq, hs]
      exact .refl

/-- Hosts that are only observed are not served. -/
theorem isServiced_observeAll (r : Roster) (os : List Offer) :
    (r.observeAll os).registry.isServiced = r.registry.isServiced := by
  funext host
  rw [Registry.isServiced, Registry.isServiced, status?_observeAll]
  cases r.registry.status? host with
  | none => cases os.any (·.hostname == host) <;> rfl
  | some s => rfl

theorem isKnown_observeAll {os : List Offer} {o : Offer} (h : o ∈ os) :
    (r.observeAll os).registry.isKnown o.hostname = true := by
  have hany : os.any (·.hostname == o.hostname) = true := List.any_eq_true.2 ⟨o, h, by simp⟩
  rw [Registry.isKnown_eq, status?_observeAll, if_pos hany]
  cases r.registry.status? o.hostname <;> rfl

/-! ### Answering the offers of known hosts -/

theorem status?_eq_seen {o : Offer} (known : r.registry.isKnown o.hostname = true)
    (h : ¬r.registry.isServiced o.hostname = true) :
    r.registry.status? o.hostname = some .seen := by
  rw [Registry.isKnown_eq, Option.isSome_iff_exists] at known
  obtain ⟨s, hs⟩ := known
  rw [Registry.isServiced, hs] at h
  cases s with
  | seen => exact hs
  | serviced | completed | stalled => exact absurd rfl h

theorem answer_of_isServiced {o : Offer} (h : r.registry.isServiced o.hostname = true)
    (a : Dispatch) : d.answer (r, a) o = (r, { a with declined := a.declined ++ [o.id] }) :=
  if_pos h

theorem answer_of_not_isServiced {o : Offer} (h : ¬r.registry.isServiced o.hostname = true)
    (a : Dispatch) : d.answer (r, a) o = (r.enter (d.launch r.drawn o),
      { a with launches := a.launches ++ [d.launch r.drawn o] }) :=
  if_neg h

theorem status?_enter_launch {o : Offer} (seen : r.registry.status? o.hostname = some .seen)
    (host : Hostname) : (r.enter (d.launch r.drawn o)).registry.status? host =
      if host = o.hostname then some (.serviced (d.taskId r.drawn)) else r.registry.status? host :=
  Registry.status?_markServiced seen (d.taskId r.drawn) host

theorem isServiced_enter_launch {o : Offer} (seen : r.registry.status? o.hostname = some .seen) :
    (r.enter (d.launch r.drawn o)).registry.isServiced = serve r.registry.isServiced [o] := by
  funext host
  rw [Registry.isServiced, status?_enter_launch seen]
  by_cases heq : host = o.hostname
  · subst heq
    rw [if_pos rfl, Offer.serve_self]
    rfl
  · rw [if_neg heq, Offer.serve_of_ne fun h => heq h.symm]
    rfl

/-- What answering offers makes of a roster. -/
structure Answered (d : Dispatcher) (r : Roster) (os : List Offer) (r' : Roster) : Prop where
  moves : Moves d r r'
  served : r'.registry.isServiced = serve r.registry.isServiced os
  drawn : r'.drawn = r.drawn + (fresh r.registry.isServiced os).length
  completed : r'.completed = r.completed
  known : ∀ host, r'.registry.isKnown host = true →
    r.registry.isKnown host = true ∨ ∃ o ∈ os, o.hostname = host
  /-- A host that is served already keeps its status. -/
  kept : ∀ host, r.registry.isServiced host = true →
    r'.registry.status? host = r.registry.status? host
  /-- A host that is launched for has that task under way. -/
  launched : ∀ l ∈ d.launches r.drawn (fresh r.registry.isServiced os),
    r'.registry.status? l.task.hostname = some (.serviced l.task.id)

theorem answered_nil : Answered d r [] r where
  moves := .refl
  served := Offer.serve_nil.symm
  drawn := rfl
  completed := rfl
  known _ h := .inl h
  kept _ _ := rfl
  launched l hl := by cases hl

theorem answered_cons_of_isServiced {r' : Roster} {o : Offer} {rest : List Offer}
    (h : r.registry.isServiced o.hostname = true) (ha : Answered d r rest r') :
    Answered d r (o :: rest) r' where
  moves := ha.moves
  served := by rw [ha.served, Offer.serve_cons o rest, Offer.serve_of_served h]
  drawn := by rw [ha.drawn, fresh, if_pos h]
  completed := ha.completed
  known host hk := (ha.known host hk).imp id fun ⟨x, hx, hhost⟩ =>
    ⟨x, List.mem_cons_of_mem _ hx, hhost⟩
  kept := ha.kept
  launched := by rw [fresh, if_pos h]; exact ha.launched

theorem answered_cons_of_seen {r' : Roster} {o : Offer} {rest : List Offer}
    (seen : r.registry.status? o.hostname = some .seen)
    (ha : Answered d (r.enter (d.launch r.drawn o)) rest r') : Answered d r (o :: rest) r' := by
  have hnot : ¬r.registry.isServiced o.hostname = true := by
    simp [Registry.isServiced, seen, HostStatus.isServiced]
  have hserve := isServiced_enter_launch (d := d) seen
  have hself := Offer.serve_self r.registry.isServiced o
  constructor
  · exact .head (.enter seen rfl) ha.moves
  · rw [ha.served, hserve, Offer.serve_cons o rest]
  · rw [ha.drawn, hserve, fresh, if_neg hnot, List.length_cons]
    exact Nat.add_right_comm ..
  · exact ha.completed
  · intro host hk
    rcases ha.known host hk with hk | ⟨x, hx, hhost⟩
    · rw [Registry.isKnown_eq, status?_enter_launch seen] at hk
      by_cases heq : host = o.hostname
      · exact .inr ⟨o, List.mem_cons_self, heq.symm⟩
      · rw [if_neg heq] at hk
        exact .inl hk
    · exact .inr ⟨x, List.mem_cons_of_mem _ hx, hhost⟩
  · intro host hs
    have hne : host ≠ o.hostname := fun heq => hnot (heq ▸ hs)
    rw [ha.kept host (by rw [hserve, Offer.serve_of_ne hne.symm, hs]), status?_enter_launch seen,
      if_neg hne]
  · intro l hl
    rw [fresh, if_neg hnot, Dispatcher.launches] at hl
    rcases List.mem_cons.1 hl with rfl | hl
    · refine (ha.kept o.hostname (hserve ▸ hself)).trans ?_
      rw [status?_enter_launch seen, if_pos rfl]
      rfl
    · exact ha.launched l (by rw [hserve]; exact hl)

/-- Offers of known hosts are answered in order, the fresh ones by launches. -/
theorem foldl_answer {os : List Offer}
    (known : ∀ o ∈ os, r.registry.isKnown o.hostname = true) (a : Dispatch) :
    Answered d r os (os.foldl d.answer (r, a)).1 ∧ (os.foldl d.answer (r, a)).2 =
      ⟨a.launches ++ d.launches r.drawn (fresh r.registry.isServiced os),
        a.declined ++ (stale r.registry.isServiced os).map (·.id)⟩ := by
  induction os generalizing r a with
  | nil => exact ⟨answered_nil, by simp [fresh, stale, Dispatcher.launches]⟩
  | cons o rest ih =>
    have hrest := fun x hx => known x (List.mem_cons_of_mem _ hx)
    rw [List.foldl_cons]
    by_cases h : r.registry.isServiced o.hostname = true
    · obtain ⟨hroster, hanswers⟩ := ih hrest { a with declined := a.declined ++ [o.id] }
      rw [answer_of_isServiced h]
      refine ⟨answered_cons_of_isServiced h hroster, hanswers.trans ?_⟩
      rw [fresh, stale, if_pos h, if_pos h, List.map_cons, List.append_assoc, List.singleton_append]
    · have seen := status?_eq_seen (known o List.mem_cons_self) h
      have hknown : ∀ x ∈ rest,
          (r.enter (d.launch r.drawn o)).registry.isKnown x.hostname = true := by
        intro x hx
        rw [Registry.isKnown_eq, status?_enter_launch seen]
        split
        · rfl
        · exact hrest x hx
      have hserve := isServiced_enter_launch (d := d) seen
      obtain ⟨hroster, hanswers⟩ :=
        ih hknown { a with launches := a.launches ++ [d.launch r.drawn o] }
      rw [answer_of_not_isServiced h]
      refine ⟨answered_cons_of_seen seen hroster, hanswers.trans ?_⟩
      rw [hserve, fresh, stale, if_neg h, if_neg h, Dispatcher.launches, List.append_assoc,
        List.singleton_append]
      rfl

/-! ### A whole batch -/

theorem answered_dispatch (d : Dispatcher) (r : Roster) (os : List Offer) :
    Answered d r os (d.dispatch r os).1 := by
  have hserved := isServiced_observeAll r os
  obtain ⟨h, -⟩ := foldl_answer (d := d) (fun o ho => isKnown_observeAll (r := r) ho) .empty
  constructor
  · exact .trans (moves_observeAll r os) h.moves
  · exact hserved ▸ h.served
  · exact hserved ▸ h.drawn
  · exact h.completed
  · intro host hk
    rcases h.known host hk with hk | hk
    · rw [Registry.isKnown_eq, status?_observeAll, Option.isSome_or, Bool.or_eq_true] at hk
      refine hk.imp id fun hany => ?_
      split at hany
      · next hb => exact (List.any_eq_true.1 hb).imp fun o ho => ⟨ho.1, beq_iff_eq.1 ho.2⟩
      · cases hany
    · exact .inr hk
  · intro host hs
    refine (h.kept host (hserved.symm ▸ hs)).trans ?_
    rw [Registry.isServiced] at hs
    rw [status?_observeAll]
    cases hold : r.registry.status? host with
    | none => rw [hold] at hs; cases hs
    | some s => rfl
  · exact hserved ▸ h.launched

theorem dispatch_snd (d : Dispatcher) (r : Roster) (os : List Offer) :
    (d.dispatch r os).2 = ⟨d.launches r.drawn (fresh r.registry.isServiced os),
      (stale r.registry.isServiced os).map (·.id)⟩ := by
  obtain ⟨-, h⟩ := foldl_answer (d := d) (fun o ho => isKnown_observeAll (r := r) ho) .empty
  rw [isServiced_observeAll] at h
  exact h

end Roster

end Rollout
