import Rollout.Proofs.ByteOrder
import Rollout.Proofs.Transitions

/-!
The listings of a registry.

A status has one of four ranks, and each listing holds the hosts of one rank. So no host is in two
of them and every known host is in one, in the order of the bytes, and the lengths add up. The hosts
that are known are those that were ever observed, and a host is listed as stalled in the state of
the one failure that was entered for it.
-/
namespace Rollout.Registry

variable {r : Registry} {ops : List Operation} {host : Hostname} {state : TaskState}

/-! ### Ranks -/

/-- The hosts of a rank, in ascending order. -/
def ranked (r : Registry) (n : Nat) : List Hostname := r.hosts.keysWhere (·.rank == n)

/-- The hosts whose task succeeded, in ascending order. -/
def completedHosts (r : Registry) : List Hostname := r.hosts.keysWhere HostStatus.isCompleted

/-- Each listing holds the hosts of one rank. -/
theorem listings_eq_ranked (r : Registry) :
    [r.unserviced, r.pending, r.stalled.map (·.1), r.completedHosts]
      = (List.range 4).map r.ranked := by
  have hseen : HostStatus.isSeen = (·.rank == 0) := by funext s; cases s <;> rfl
  have hpending : HostStatus.isPending = (·.rank == 1) := by funext s; cases s <;> rfl
  have hstalled : (fun s : HostStatus => s.stalledIn?.isSome) = (·.rank == 2) := by
    funext s
    cases s <;> rfl
  have hcompleted : HostStatus.isCompleted = (·.rank == 3) := by funext s; cases s <;> rfl
  rw [unserviced, pending, map_fst_stalled, completedHosts, hseen, hpending, hstalled, hcompleted]
  rfl

theorem mem_ranked_iff {n : Nat} :
    host ∈ r.ranked n ↔ ∃ s, r.status? host = some s ∧ s.rank = n := by
  rw [ranked, Table.mem_keysWhere_iff]
  simp only [beq_iff_eq, status?]

theorem disjoint_ranked {m n : Nat} (h : m ≠ n) : List.Disjoint (r.ranked m) (r.ranked n) := by
  intro host hm hn
  obtain ⟨s, hs, rfl⟩ := mem_ranked_iff.1 hm
  obtain ⟨s', hs', rfl⟩ := mem_ranked_iff.1 hn
  exact h (congrArg HostStatus.rank (Option.some.inj (hs.symm.trans hs')))

theorem pairwise_disjoint_ranked (r : Registry) :
    ((List.range 4).map r.ranked).Pairwise List.Disjoint :=
  List.pairwise_map.2 (List.nodup_range.imp disjoint_ranked)

theorem rank_lt (s : HostStatus) : s.rank < 4 := by cases s <;> simp [HostStatus.rank]

/-- The known hosts are those of all ranks together. -/
theorem mem_flatten_ranked_iff :
    host ∈ ((List.range 4).map r.ranked).flatten ↔ r.isKnown host = true := by
  rw [isKnown_eq, Option.isSome_iff_exists]
  simp only [List.mem_flatten, List.mem_map, List.mem_range]
  constructor
  · rintro ⟨_, ⟨n, -, rfl⟩, hmem⟩
    obtain ⟨s, hs, -⟩ := mem_ranked_iff.1 hmem
    exact ⟨s, hs⟩
  · rintro ⟨s, hs⟩
    exact ⟨_, ⟨s.rank, rank_lt s, rfl⟩, mem_ranked_iff.2 ⟨s, hs, rfl⟩⟩

/-- Listings are in the order of the bytes. -/
theorem pairwise_encode_ranked (r : Registry) (n : Nat) :
    (r.ranked n).Pairwise fun a b => Text.encode a.toList < Text.encode b.toList :=
  (r.hosts.ascending_keysWhere _).imp Text.encode_lt_encode

/-! ### Counts -/

/-- The ranks together have as many entries as there are known hosts. -/
theorem length_flatten_ranked (r : Registry) :
    ((List.range 4).map r.ranked).flatten.length = r.knownCount := by
  have hlength : ((List.range 4).map r.ranked).flatten.length =
      (r.ranked 0).length + (r.ranked 1).length + (r.ranked 2).length + (r.ranked 3).length := by
    simp [List.range_succ, Nat.add_assoc]
  simp only [hlength, ranked, ← Table.countWhere_eq_length, knownCount, Table.countWhere,
    Table.size]
  induction r.hosts.entries with
  | nil => rfl
  | cons e rest ih =>
    simp only [List.countP_cons, List.length_cons, ← ih]
    cases e.2 <;> simp [HostStatus.rank] <;> omega

theorem servicedCount_add_length (r : Registry) :
    r.servicedCount + r.unserviced.length = r.knownCount := by
  rw [unserviced, ← Table.countWhere_eq_length, servicedCount, knownCount]
  simp only [Table.countWhere, Table.size,
    List.length_eq_countP_add_countP fun e : Hostname × HostStatus => e.2.isServiced,
    HostStatus.isSeen_eq, Bool.not_eq_true, Bool.decide_eq_false]

/-! ### What was observed and what failed -/

theorem Life.observe_mem {s : HostStatus} {done : List Operation} (h : Life host (some s) done) :
    .observe host ∈ done := by
  cases h <;> exact List.mem_cons_self

/-- The known hosts are the observed ones. -/
theorem isKnown_performAll_iff (ops : List Operation) (host : Hostname) :
    (empty.performAll ops).isKnown host = true ↔ .observe host ∈ ops := by
  constructor
  · intro hknown
    rw [isKnown_eq, Option.isSome_iff_exists] at hknown
    obtain ⟨s, hs⟩ := hknown
    have hlife := life_performAll ops host
    rw [hs] at hlife
    exact (carriedOut_sublist empty ops).subset (List.mem_of_mem_filter hlife.observe_mem)
  · intro hmem
    obtain ⟨before, later, rfl⟩ := List.append_of_mem hmem
    rw [performAll_append]
    have hnow : ((empty.performAll before).observe host).1.isKnown host = true := by
      rw [isKnown_eq, status?_observe, if_pos rfl]
      cases (empty.performAll before).status? host <;> rfl
    exact isKnown_of_changes (changes_performAll _ later) hnow

theorem Life.stalledIn?_iff {old : Option HostStatus} {done : List Operation}
    (h : Life host old done) : old.bind HostStatus.stalledIn? = some state ↔
      .markStalled host state ∈ done ∧ .markCompleted host ∉ done := by
  cases h <;> simp [HostStatus.stalledIn?, eq_comm]

/-- A host fails once at most. -/
theorem Life.failure_unique {old : Option HostStatus} {done : List Operation} {other : TaskState}
    (h : Life host old done) (hstate : .markStalled host state ∈ done)
    (hother : .markStalled host other ∈ done) : state = other := by
  cases h <;> simp_all

theorem mem_completedHosts_iff :
    host ∈ r.completedHosts ↔ ∃ task, r.status? host = some (.completed task) := by
  rw [completedHosts, Table.mem_keysWhere_iff]
  constructor
  · rintro ⟨s, hs, hcompleted⟩
    cases s with
    | completed task => exact ⟨task, hs⟩
    | seen | serviced | stalled => cases hcompleted
  · rintro ⟨task, hs⟩
    exact ⟨_, hs, rfl⟩

theorem mem_stalled_iff :
    (host, state) ∈ r.stalled ↔ (r.status? host).bind HostStatus.stalledIn? = some state := by
  simp only [stalled, List.mem_filterMap, Option.map_eq_some_iff, Prod.mk.injEq,
    Option.bind_eq_some_iff]
  constructor
  · rintro ⟨e, he, _, hstate, rfl, rfl⟩
    exact ⟨e.2, Table.mem_entries_iff.1 he, hstate⟩
  · rintro ⟨s, hs, hstate⟩
    exact ⟨(host, s), Table.mem_entries_iff.2 hs, state, hstate, rfl, rfl⟩

/-- Whatever operations are done to a fresh registry, its four listings are pairwise disjoint and
together hold the hosts that were ever observed, which are the known ones. Each is in strictly
ascending order of the bytes. A host is listed as stalled in the state of the failure that was
entered for it, of which there is one at most, as long as it has not succeeded. The lengths of the
listings add up to the number of known hosts, and those that have a task are all but the first. -/
theorem listings_partition_observed (ops : List Operation) :
    let r := empty.performAll ops
    let done := empty.carriedOut ops
    let listings := [r.unserviced, r.pending, r.stalled.map (·.1), r.completedHosts]
    listings.Pairwise List.Disjoint ∧
    (∀ host, (host ∈ listings.flatten ↔ .observe host ∈ ops) ∧
      (r.isKnown host = true ↔ .observe host ∈ ops)) ∧
    (∀ listing ∈ listings,
      listing.Pairwise fun a b => Text.encode a.toList < Text.encode b.toList) ∧
    (∀ host, host ∈ r.completedHosts ↔ ∃ task, r.status? host = some (.completed task)) ∧
    (∀ host state, (host, state) ∈ r.stalled ↔
      .markStalled host state ∈ done ∧ .markCompleted host ∉ done) ∧
    (∀ host state other, .markStalled host state ∈ done → .markStalled host other ∈ done →
      state = other) ∧
    r.completedCount = r.completedHosts.length ∧
    r.knownCount = r.unserviced.length + r.pending.length + r.stalled.length + r.completedCount ∧
    r.servicedCount = r.knownCount - r.unserviced.length := by
  intro r done listings
  have hranked : listings = (List.range 4).map r.ranked := listings_eq_ranked r
  have hcompleted : r.completedCount = r.completedHosts.length := r.hosts.countWhere_eq_length _
  refine ⟨?_, fun host => ⟨?_, isKnown_performAll_iff ops host⟩, ?_, fun host => ?_,
    fun host state => ?_, fun host state other hstate hother => ?_, hcompleted, ?_, ?_⟩
  · rw [hranked]
    exact r.pairwise_disjoint_ranked
  · rw [hranked, mem_flatten_ranked_iff]
    exact isKnown_performAll_iff ops host
  · rw [hranked]
    intro listing hmem
    obtain ⟨n, -, rfl⟩ := List.mem_map.1 hmem
    exact r.pairwise_encode_ranked n
  · exact mem_completedHosts_iff
  · rw [mem_stalled_iff, (life_performAll ops host).stalledIn?_iff]
    exact and_congr (mem_life_iff ops (.markStalled host state))
      (not_congr (mem_life_iff ops (.markCompleted host)))
  · exact (life_performAll ops host).failure_unique
      ((mem_life_iff ops (.markStalled host state)).2 hstate)
      ((mem_life_iff ops (.markStalled host other)).2 hother)
  · have hlength := r.length_flatten_ranked
    rw [← hranked] at hlength
    simp only [listings, List.flatten_cons, List.flatten_nil, List.length_append, List.length_map,
      List.length_nil] at hlength
    omega
  · have hserved := r.servicedCount_add_length
    omega

end Rollout.Registry
