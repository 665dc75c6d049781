/-!
Tables: finite maps from names to values, in ascending order of the names.

Names are ordered by code points, which is the order of their UTF-8 bytes. The order is part of the
type, so that two tables with the same look-ups are equal and every listing comes out sorted.
-/
namespace Rollout

/-- A finite map from names to values. -/
structure Table (β : Type) where
  entries : List (String × β)
  ascending : entries.Pairwise fun a b => a.1 < b.1

namespace Table

variable {β : Type}

instance [DecidableEq β] : DecidableEq (Table β) := fun a b =>
  if h : a.entries = b.entries then
    isTrue (by cases a; cases b; simp_all)
  else isFalse fun e => h (congrArg entries e)

/-- The table without entries. -/
def empty : Table β := ⟨[], .nil⟩

instance : Inhabited (Table β) := ⟨empty⟩

/-- The value of a name among entries. -/
def find (key : String) : List (String × β) → Option β
  | [] => none
  | e :: rest => if key = e.1 then some e.2 else find key rest

/-- The value of a name. -/
def get? (t : Table β) (key : String) : Option β := find key t.entries

def contains (t : Table β) (key : String) : Bool := (t.get? key).isSome

def size (t : Table β) : Nat := t.entries.length

/-- Puts an entry in its place among ascending entries; one of the same name gives way. -/
def place (key : String) (value : β) : List (String × β) → List (String × β)
  | [] => [(key, value)]
  | e :: rest =>
    if key < e.1 then (key, value) :: e :: rest
    else if key = e.1 then (key, value) :: rest
    else e :: place key value rest

theorem mem_place {key : String} {value : β} {es : List (String × β)} {e : String × β}
    (h : e ∈ place key value es) : e = (key, value) ∨ e ∈ es := by
  induction es with
  | nil => simpa [place] using h
  | cons d rest ih =>
    simp only [place] at h
    split at h
    · simpa using h
    · split at h
      · rcases List.mem_cons.1 h with h | h
        · exact .inl h
        · exact .inr (List.mem_cons_of_mem _ h)
      · rcases List.mem_cons.1 h with h | h
        · exact .inr (by simp [h])
        · exact (ih h).imp id (List.mem_cons_of_mem _)

/-- Two names are in one order, in the other, or the same. -/
theorem lt_or_eq_or_gt (a b : String) : a < b ∨ a = b ∨ b < a := by
  by_cases h : a < b
  · exact .inl h
  · by_cases h' : b < a
    · exact .inr (.inr h')
    · exact .inr (.inl (String.le_antisymm (String.not_lt.1 h') (String.not_lt.1 h)))

theorem ascending_place {key : String} {value : β} {es : List (String × β)}
    (h : es.Pairwise fun a b => a.1 < b.1) :
    (place key value es).Pairwise fun a b => a.1 < b.1 := by
  induction es with
  | nil => simp [place]
  | cons e rest ih =>
    obtain ⟨hhead, htail⟩ := List.pairwise_cons.1 h
    simp only [place]
    split
    · next hlt =>
      refine List.pairwise_cons.2 ⟨fun d hd => ?_, h⟩
      rcases List.mem_cons.1 hd with rfl | hd
      · exact hlt
      · exact String.lt_trans hlt (hhead d hd)
    · next hnlt =>
      split
      · next heq => exact List.pairwise_cons.2 ⟨fun d hd => heq ▸ hhead d hd, htail⟩
      · next hne =>
        refine List.pairwise_cons.2 ⟨fun d hd => ?_, ih htail⟩
        rcases mem_place hd with rfl | hd
        · exact ((lt_or_eq_or_gt key e.1).resolve_left hnlt).resolve_left hne
        · exact hhead d hd

/-- The table with a name set to a value. -/
def insert (t : Table β) (key : String) (value : β) : Table β :=
  ⟨place key value t.entries, ascending_place t.ascending⟩

/-- The names of the entries that pass a test, in ascending order. -/
def keysWhere (t : Table β) (p : β → Bool) : List String :=
  (t.entries.filter fun e => p e.2).map (·.1)

/-- How many entries pass a test. -/
def countWhere (t : Table β) (p : β → Bool) : Nat := t.entries.countP fun e => p e.2

/-! ### Look-ups -/

theorem find_place (key other : String) (value : β) (es : List (String × β)) :
    find other (place key value es) = if other = key then some value else find other es := by
  induction es with
  | nil => rfl
  | cons e rest ih =>
    simp only [place]
    split
    · rfl
    · split
      · next heq =>
        subst heq
        by_cases h : other = e.1 <;> simp [find, h]
      · next hne =>
        simp only [find, ih]
        by_cases h : other = e.1
        · have hk : ¬other = key := fun he => hne (he.symm.trans h)
          simp [h, if_neg (h ▸ hk)]
        · simp [h]

/-- Setting a name changes the look-up of that name and of no other. -/
theorem get?_insert (t : Table β) (key other : String) (value : β) :
    (t.insert key value).get? other = if other = key then some value else t.get? other :=
  find_place key other value t.entries

/-- A name before all others has no value among them. -/
theorem find_eq_none {key : String} {es : List (String × β)} (h : ∀ e ∈ es, key < e.1) :
    find key es = none := by
  induction es with
  | nil => rfl
  | cons e rest ih =>
    have hne : ¬key = e.1 := fun he => String.lt_irrefl _ (he ▸ h e List.mem_cons_self)
    simp only [find, if_neg hne]
    exact ih fun d hd => h d (List.mem_cons_of_mem _ hd)

/-- Ascending entries with the same look-ups are the same. -/
theorem eq_of_find {es ds : List (String × β)} (hs : es.Pairwise fun a b => a.1 < b.1)
    (ht : ds.Pairwise fun a b => a.1 < b.1) (h : ∀ key, find key es = find key ds) : es = ds := by
  induction es generalizing ds with
  | nil =>
    cases ds with
    | nil => rfl
    | cons d ds => simpa [find] using h d.1
  | cons e es ih =>
    cases ds with
    | nil => simpa [find] using h e.1
    | cons d ds =>
      obtain ⟨he, hes⟩ := List.pairwise_cons.1 hs
      obtain ⟨hd, hds⟩ := List.pairwise_cons.1 ht
      have before : ∀ {x y : String × β} {ys : List (String × β)},
          x.1 < y.1 → (∀ z ∈ ys, y.1 < z.1) → find x.1 (y :: ys) = none := by
        intro x y ys hxy hys
        refine find_eq_none fun z hz => ?_
        rcases List.mem_cons.1 hz with rfl | hz
        · exact hxy
        · exact String.lt_trans hxy (hys z hz)
      have hkey : e.1 = d.1 := by
        rcases lt_or_eq_or_gt e.1 d.1 with hlt | heq | hgt
        · have := (h e.1).trans (before hlt hd)
          simp [find] at this
        · exact heq
        · have := (h d.1).symm.trans (before hgt he)
          simp [find] at this
      obtain ⟨ek, ev⟩ := e
      obtain ⟨dk, dv⟩ := d
      simp only at hkey
      subst hkey
      have hv : ev = dv := by simpa [find] using h ek
      subst hv
      congr 1
      refine ih hes hds fun key => ?_
      by_cases hk : key = ek
      · subst hk
        rw [find_eq_none he, find_eq_none hd]
      · simpa [find, hk] using h key

/-- Two tables with the same look-ups are the same table. -/
theorem ext_get? {s t : Table β} (h : ∀ key, s.get? key = t.get? key) : s = t := by
  obtain ⟨es, hs⟩ := s
  obtain ⟨ds, ht⟩ := t
  congr
  exact eq_of_find hs ht h

end Table

end Rollout
