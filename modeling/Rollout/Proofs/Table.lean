import Rollout.Table
import Mathlib.Data.Finset.Card

/-!
Entries, listings and counts of a table.

The entries of a table are exactly its look-ups, each name once, so that counting entries counts
names. A listing is in ascending order, so that it is known from its members. Setting a name takes
away what stood there and adds what stands there now.
-/
namespace Rollout.Table

variable {β : Type}

/-! ### Entries and look-ups -/

theorem mem_of_find {key : String} {value : β} :
    ∀ {es : List (String × β)}, find key es = some value → (key, value) ∈ es
  | [], h => by simp [find] at h
  | e :: rest, h => by
    by_cases hk : key = e.1
    · simp only [find, if_pos hk, Option.some.injEq] at h
      subst hk h
      exact List.mem_cons_self
    · rw [find, if_neg hk] at h
      exact List.mem_cons_of_mem _ (mem_of_find h)

theorem find_of_mem {key : String} {value : β} :
    ∀ {es : List (String × β)}, es.Pairwise (fun a b => a.1 < b.1) → (key, value) ∈ es →
      find key es = some value
  | e :: rest, hasc, h => by
    obtain ⟨hhead, htail⟩ := List.pairwise_cons.1 hasc
    rcases List.mem_cons.1 h with rfl | hmem
    · simp [find]
    · have hne : ¬key = e.1 := fun he => String.lt_irrefl _ (he ▸ hhead _ hmem)
      rw [find, if_neg hne]
      exact find_of_mem htail hmem

theorem mem_entries_iff {t : Table β} {key : String} {value : β} :
    (key, value) ∈ t.entries ↔ t.get? key = some value :=
  ⟨find_of_mem t.ascending, mem_of_find⟩

/-! ### Listings -/

theorem mem_keysWhere_iff {t : Table β} {p : β → Bool} {key : String} :
    key ∈ t.keysWhere p ↔ ∃ value, t.get? key = some value ∧ p value = true := by
  simp only [keysWhere, List.mem_map, List.mem_filter]
  constructor
  · rintro ⟨e, ⟨hmem, hp⟩, rfl⟩
    exact ⟨e.2, mem_entries_iff.1 hmem, hp⟩
  · rintro ⟨value, hget, hp⟩
    exact ⟨(key, value), ⟨mem_entries_iff.2 hget, hp⟩, rfl⟩

theorem ascending_keysWhere (t : Table β) (p : β → Bool) :
    (t.keysWhere p).Pairwise (· < ·) := by
  rw [keysWhere, List.pairwise_map]
  exact t.ascending.filter _

theorem nodup_keysWhere (t : Table β) (p : β → Bool) : (t.keysWhere p).Nodup := by
  refine (t.ascending_keysWhere p).imp ?_
  rintro a b hlt rfl
  exact String.lt_irrefl a hlt

/-- Listings with the same members are the same. -/
theorem keysWhere_congr {s t : Table β} {p q : β → Bool}
    (h : ∀ key, key ∈ s.keysWhere p ↔ key ∈ t.keysWhere q) : s.keysWhere p = t.keysWhere q := by
  have hperm : (s.keysWhere p).Perm (t.keysWhere q) :=
    (List.perm_ext_iff_of_nodup (s.nodup_keysWhere p) (t.nodup_keysWhere q)).2 h
  exact hperm.eq_of_pairwise (fun _ _ _ _ hab hba => (String.lt_asymm hab hba).elim)
    (s.ascending_keysWhere p) (t.ascending_keysWhere q)

theorem keysWhere_eq_nil_iff {t : Table β} {p : β → Bool} :
    t.keysWhere p = [] ↔ ∀ key value, t.get? key = some value → p value = false := by
  rw [List.eq_nil_iff_forall_not_mem]
  simp only [mem_keysWhere_iff, not_exists, not_and, Bool.not_eq_true]

/-! ### Counts -/

/-- What a test counts are the names that it lists. -/
theorem countWhere_eq_length (t : Table β) (p : β → Bool) :
    t.countWhere p = (t.keysWhere p).length := by
  rw [countWhere, List.countP_eq_length_filter, keysWhere, List.length_map]

/-- Placing an entry adds it to a count and takes away the one that gives way. -/
theorem countP_place (p : β → Bool) (key : String) (value : β) :
    ∀ {es : List (String × β)}, es.Pairwise (fun a b => a.1 < b.1) →
      (place key value es).countP (fun e => p e.2) + ((find key es).elim 0 fun v => (p v).toNat)
        = es.countP (fun e => p e.2) + (p value).toNat
  | [], _ => by cases h : p value <;> simp [place, find, h]
  | e :: rest, hasc => by
    obtain ⟨hhead, htail⟩ := List.pairwise_cons.1 hasc
    simp only [place]
    split
    · next hlt =>
      have hnone : find key (e :: rest) = none := by
        refine find_eq_none fun d hd => ?_
        rcases List.mem_cons.1 hd with rfl | hd
        · exact hlt
        · exact String.lt_trans hlt (hhead d hd)
      cases h : p value <;> simp [hnone, List.countP_cons, h]
    · split
      · next heq =>
        cases h : p value <;> cases h' : p e.2 <;> simp [find, heq, h, h']
      · next hne =>
        have ih := countP_place p key value htail
        simp only [find, if_neg hne, List.countP_cons]
        omega

theorem countWhere_insert_of_none {t : Table β} {key : String} (h : t.get? key = none) (value : β)
    (p : β → Bool) : (t.insert key value).countWhere p = t.countWhere p + (p value).toNat := by
  have hp := countP_place p key value t.ascending
  rw [get?] at h
  rw [h] at hp
  exact hp

theorem countWhere_insert_of_some {t : Table β} {key : String} {old : β} (h : t.get? key = some old)
    (value : β) (p : β → Bool) :
    (t.insert key value).countWhere p + (p old).toNat = t.countWhere p + (p value).toNat := by
  have hp := countP_place p key value t.ascending
  rw [get?] at h
  rw [h] at hp
  exact hp

/-- A count does not fall if what gives way counted no more than what takes its place. -/
theorem countWhere_le_insert {t : Table β} {key : String} {value : β} {p : β → Bool}
    (h : ∀ old, t.get? key = some old → p old = true → p value = true) :
    t.countWhere p ≤ (t.insert key value).countWhere p := by
  cases hget : t.get? key with
  | none =>
    rw [countWhere_insert_of_none hget]
    exact Nat.le_add_right ..
  | some old =>
    have hinsert := countWhere_insert_of_some hget value p
    have hle : (p old).toNat ≤ (p value).toNat := by
      cases hp : p old with
      | false => exact Nat.zero_le _
      | true => rw [h old hget hp]
    omega

/-- A count rises if what gives way did not count and what takes its place does. -/
theorem countWhere_lt_insert {t : Table β} {key : String} {value : β} {p : β → Bool}
    (h : ∀ old, t.get? key = some old → p old = false) (hvalue : p value = true) :
    t.countWhere p < (t.insert key value).countWhere p := by
  cases hget : t.get? key with
  | none =>
    rw [countWhere_insert_of_none hget, hvalue]
    exact Nat.lt_succ_self _
  | some old =>
    have hinsert := countWhere_insert_of_some hget value p
    rw [h old hget, hvalue] at hinsert
    exact Nat.lt_of_succ_le hinsert.ge

theorem size_eq_countWhere (t : Table β) : t.size = t.countWhere fun _ => true := by
  rw [size, countWhere, List.countP_true]

theorem countWhere_le_size (t : Table β) (p : β → Bool) : t.countWhere p ≤ t.size :=
  List.countP_le_length

/-- A count is the whole size when every value passes. -/
theorem countWhere_eq_size_iff {t : Table β} {p : β → Bool} :
    t.countWhere p = t.size ↔ ∀ key value, t.get? key = some value → p value = true := by
  rw [countWhere, size, List.countP_eq_length]
  constructor
  · intro h key value hget
    exact h (key, value) (mem_entries_iff.2 hget)
  · intro h e he
    exact h e.1 e.2 (mem_entries_iff.1 he)

/-- A count is the number of different names that have a value of that kind. -/
theorem countWhere_eq_card {t : Table β} {p : β → Bool} {names : List String}
    (h : ∀ key, (∃ value, t.get? key = some value ∧ p value = true) ↔ key ∈ names) :
    t.countWhere p = names.toFinset.card := by
  rw [countWhere_eq_length, ← List.toFinset_card_of_nodup (t.nodup_keysWhere p)]
  congr 1
  ext key
  rw [List.mem_toFinset, List.mem_toFinset, mem_keysWhere_iff, h key]

end Rollout.Table
