import Mathlib.Data.List.Basic
import Mathlib.Data.List.Forall2
import Rollout.Json.Record

/-!
Values that are read alike.

A reader of a record looks at its fields and at nothing else. So it cannot tell two objects apart
that have alike values under the names of the fields, wherever these stand and whatever other
members there are; nor can it tell an object with all fields from the array of their values. Which
values are alike is said for each field, and so for records in records and in lists of records; what
is alike by such a rule is read alike.
-/
namespace Rollout.Json

/-- Which values are alike. -/
abbrev Likeness := Json → Json → Prop

/-- The fields of a record, in order, and which values of each are alike. -/
abbrev Fields := List (String × Likeness)

def Fields.names (fs : Fields) : List String := fs.map (·.1)

/-- The values that an object has under a name. -/
def valuesOf (name : String) (members : List (String × Json)) : List Json :=
  (members.filter (·.1 == name)).map (·.2)

/-- Lists are alike if their items are, one by one. -/
inductive ListAlike (like : Likeness) : Likeness where
  | same (v : Json) : ListAlike like v v
  | items {vs ws : List Json} (h : List.Forall₂ like vs ws) : ListAlike like (.arr vs) (.arr ws)

/-- The items at the places of some fields are alike, and those behind these places are the same. -/
inductive PlacesAlike : Fields → List Json → List Json → Prop where
  | ended (fs : Fields) : PlacesAlike fs [] []
  | surplus (vs : List Json) : PlacesAlike [] vs vs
  | place {f : String × Likeness} {fs : Fields} {v w : Json} {vs ws : List Json}
      (first : f.2 v w) (rest : PlacesAlike fs vs ws) : PlacesAlike (f :: fs) (v :: vs) (w :: ws)

/-- Records are alike if they have alike values for each field. -/
inductive RecordAlike (fs : Fields) : Likeness where
  | same (v : Json) : RecordAlike fs v v
  /-- Two objects: the order of their members and members of other names make no difference. -/
  | named {ms ns : List (String × Json)}
      (h : ∀ f ∈ fs, List.Forall₂ f.2 (valuesOf f.1 ms) (valuesOf f.1 ns)) :
      RecordAlike fs (.obj ms) (.obj ns)
  /-- Two arrays. -/
  | placed {vs ws : List Json} (h : PlacesAlike fs vs ws) : RecordAlike fs (.arr vs) (.arr ws)
  /-- An object with one value for each field, and an array of these values in order. -/
  | listed {ms : List (String × Json)} {ws : List Json}
      (h : List.Forall₂ (fun f w => ∃ v, valuesOf f.1 ms = [v] ∧ f.2 v w) fs ws) :
      RecordAlike fs (.obj ms) (.arr ws)

variable {α : Type} {like : Likeness} {fs : Fields} {read : Json → Option α}
  {ms ns : List (String × Json)} {vs ws : List Json} {name : String}

/-! ### Values under a name -/

theorem lookup_eq_head? (name : String) (ms : List (String × Json)) :
    ms.lookup name = (valuesOf name ms).head? := by
  induction ms with
  | nil => rfl
  | cons m ms ih =>
    rw [valuesOf, List.lookup_cons, List.filter_cons, BEq.comm (a := name)]
    cases m.1 == name with
    | true => rfl
    | false => exact ih

theorem namedOnce_eq_true_iff {names : List String} :
    namedOnce names ms = true ↔ ∀ name ∈ names, (valuesOf name ms).length ≤ 1 := by
  simp [namedOnce, valuesOf]

theorem valuesOf_cons_self (name : String) (v : Json) (ms : List (String × Json)) :
    valuesOf name ((name, v) :: ms) = v :: valuesOf name ms := by
  simp [valuesOf]

theorem valuesOf_cons_of_ne {other : String} (h : other ≠ name) (v : Json)
    (ms : List (String × Json)) : valuesOf name ((other, v) :: ms) = valuesOf name ms := by
  simp [valuesOf, h]

theorem valuesOf_append (name : String) (ms ns : List (String × Json)) :
    valuesOf name (ms ++ ns) = valuesOf name ms ++ valuesOf name ns := by
  simp [valuesOf]

theorem valuesOf_eq_nil (h : ∀ m ∈ ms, m.1 ≠ name) : valuesOf name ms = [] := by
  simpa [valuesOf] using h

/-- Members may change places and others may join them. -/
theorem valuesOf_reordered {others : List (String × Json)} (hperm : ns.Perm (ms ++ others))
    (honce : (valuesOf name ms).length ≤ 1) (hothers : ∀ m ∈ others, m.1 ≠ name) :
    valuesOf name ns = valuesOf name ms := by
  have hvalues : (valuesOf name ns).Perm (valuesOf name ms) := by
    have h := (hperm.filter (·.1 == name)).map (·.2)
    rwa [← valuesOf, ← valuesOf, valuesOf_append, valuesOf_eq_nil hothers, List.append_nil] at h
  -- of one value at most there is only one order
  match hms : valuesOf name ms with
  | [] => exact List.perm_nil.1 (hms ▸ hvalues)
  | [v] => exact List.perm_singleton.1 (hms ▸ hvalues)
  | _ :: _ :: _ =>
    rw [hms] at honce
    simp at honce

/-- Members are alike, one by one, if they have the same names and alike values for the fields. -/
abbrev MembersAlike (fs : Fields) : List (String × Json) → List (String × Json) → Prop :=
  List.Forall₂ fun m n => m.1 = n.1 ∧ ∀ f ∈ fs, f.1 = m.1 → f.2 m.2 n.2

theorem MembersAlike.refl (hrefl : ∀ f ∈ fs, ∀ v, f.2 v v) (ms : List (String × Json)) :
    MembersAlike fs ms ms :=
  List.forall₂_same.2 fun m _ => ⟨rfl, fun f hf _ => hrefl f hf m.2⟩

theorem MembersAlike.valuesOf (h : MembersAlike fs ms ns) {f : String × Likeness} (hf : f ∈ fs) :
    List.Forall₂ f.2 (valuesOf f.1 ms) (valuesOf f.1 ns) := by
  induction h with
  | nil => exact .nil
  | @cons m n ms ns first _ ih =>
    obtain ⟨hname, hvalue⟩ := first
    by_cases hm : m.1 = f.1
    · have hn : n.1 = f.1 := hname ▸ hm
      rw [← hm, valuesOf_cons_self, hm, ← hn, valuesOf_cons_self, hn]
      exact .cons (hvalue f hf hm.symm) ih
    · rw [valuesOf_cons_of_ne hm, valuesOf_cons_of_ne (hname ▸ hm)]
      exact ih

/-- An object is alike if its fields have alike values, are in another order, and have members
among them that are no fields of the record. -/
theorem RecordAlike.of_reordered {changed others : List (String × Json)}
    (honce : namedOnce fs.names ms = true) (hlike : MembersAlike fs ms changed)
    (hperm : ns.Perm (changed ++ others)) (hothers : ∀ m ∈ others, m.1 ∉ fs.names) :
    RecordAlike fs (.obj ms) (.obj ns) := by
  -- the values of each field change first, and then their places
  refine .named fun f hf => ?_
  have hname : f.1 ∈ fs.names := List.mem_map_of_mem hf
  have hvalues := hlike.valuesOf hf
  rwa [valuesOf_reordered hperm
    (hvalues.length_eq ▸ namedOnce_eq_true_iff.1 honce _ hname)
    fun m hm heq => hothers m hm (heq ▸ hname)]

/-! ### What a record has for its fields -/

/-- What alike records have for a field. -/
inductive SlotAlike (like : Likeness) : Slot → Slot → Prop where
  | given {v w : Json} (h : like v w) : SlotAlike like (.given v) (.given w)
  | unnamed : SlotAlike like .unnamed .unnamed
  | cutOff : SlotAlike like .cutOff .cutOff

/-- What alike records have for their fields. -/
inductive SlotsAlike : Fields → List Slot → List Slot → Prop where
  | nil : SlotsAlike [] [] []
  | cons {f : String × Likeness} {fs : Fields} {a b : Slot} {as bs : List Slot}
      (first : SlotAlike f.2 a b) (rest : SlotsAlike fs as bs) :
      SlotsAlike (f :: fs) (a :: as) (b :: bs)

theorem slotAlike_ofNamed (h : List.Forall₂ like (valuesOf name ms) (valuesOf name ns)) :
    SlotAlike like (.ofNamed name ms) (.ofNamed name ns) := by
  rw [Slot.ofNamed, Slot.ofNamed, lookup_eq_head?, lookup_eq_head?]
  cases hms : valuesOf name ms with
  | nil =>
    rw [hms, List.forall₂_nil_left_iff] at h
    rw [h]
    exact .unnamed
  | cons v vs =>
    obtain ⟨w, ws, hfirst, -, hns⟩ := List.forall₂_cons_left_iff.1 (hms ▸ h)
    rw [hns]
    exact .given hfirst

theorem slotsAlike_ofNamed
    (h : ∀ f ∈ fs, List.Forall₂ f.2 (valuesOf f.1 ms) (valuesOf f.1 ns)) :
    SlotsAlike fs (fs.names.map (Slot.ofNamed · ms)) (fs.names.map (Slot.ofNamed · ns)) := by
  induction fs with
  | nil => exact .nil
  | cons f fs ih =>
    obtain ⟨hfirst, hrest⟩ := List.forall_mem_cons.1 h
    exact .cons (slotAlike_ofNamed hfirst) (ih hrest)

theorem slotsAlike_cutOff (fs : Fields) :
    SlotsAlike fs (Slot.ofPlaces fs.names []) (Slot.ofPlaces fs.names []) := by
  induction fs with
  | nil => exact .nil
  | cons f fs ih => exact .cons .cutOff ih

theorem slotsAlike_ofPlaces (h : PlacesAlike fs vs ws) :
    SlotsAlike fs (Slot.ofPlaces fs.names vs) (Slot.ofPlaces fs.names ws) := by
  induction h with
  | ended fs => exact slotsAlike_cutOff fs
  | surplus => exact .nil
  | place first _ ih => exact .cons (.given first) ih

theorem slotsAlike_listed
    (h : List.Forall₂ (fun f w => ∃ v, valuesOf f.1 ms = [v] ∧ f.2 v w) fs ws) :
    SlotsAlike fs (fs.names.map (Slot.ofNamed · ms)) (Slot.ofPlaces fs.names ws) := by
  induction h with
  | nil => exact .nil
  | cons first _ ih =>
    obtain ⟨v, hv, hlike⟩ := first
    refine .cons ?_ ih
    simp only [Slot.ofNamed, lookup_eq_head?, hv]
    exact .given hlike

theorem PlacesAlike.length_eq (h : PlacesAlike fs vs ws) :
    vs.length = ws.length := by
  induction h with
  | ended | surplus => rfl
  | place _ _ ih => exact congrArg (· + 1) ih

theorem namedOnce_of_listed
    (h : List.Forall₂ (fun f w => ∃ v, valuesOf f.1 ms = [v] ∧ f.2 v w) fs ws) :
    namedOnce fs.names ms = true := by
  refine namedOnce_eq_true_iff.2 ?_
  induction h with
  | nil => exact List.forall_mem_nil _
  | cons first _ ih =>
    obtain ⟨v, hv, -⟩ := first
    exact List.forall_mem_cons.2 ⟨hv ▸ Nat.le_refl 1, ih⟩

/-- Alike records are both none with these fields, or they have the like for each field. -/
theorem slots?_alike {v w : Json} (h : RecordAlike fs v w) : v = w ∨
    (slots? fs.names v = none ∧ slots? fs.names w = none) ∨
    ∃ as bs, slots? fs.names v = some as ∧ slots? fs.names w = some bs ∧ SlotsAlike fs as bs := by
  cases h with
  | same => exact .inl rfl
  | @named ms ns h =>
    have honce : namedOnce fs.names ms = namedOnce fs.names ns := by
      refine Bool.eq_iff_iff.2 ?_
      rw [namedOnce_eq_true_iff, namedOnce_eq_true_iff]
      refine forall₂_congr fun name hname => ?_
      obtain ⟨f, hf, rfl⟩ := List.mem_map.1 hname
      rw [(h f hf).length_eq]
    refine .inr ?_
    simp only [slots?, ← honce]
    cases namedOnce fs.names ms with
    | true => exact .inr ⟨_, _, rfl, rfl, slotsAlike_ofNamed h⟩
    | false => exact .inl ⟨rfl, rfl⟩
  | @placed vs ws h =>
    refine .inr ?_
    simp only [slots?, ← h.length_eq]
    split
    · exact .inr ⟨_, _, rfl, rfl, slotsAlike_ofPlaces h⟩
    · exact .inl ⟨rfl, rfl⟩
  | @listed ms ws h =>
    have honce : namedOnce fs.names ms = true := namedOnce_of_listed h
    have hlength : ws.length ≤ fs.names.length := by simp [Fields.names, h.length_eq]
    simp only [slots?, honce, if_true, if_pos hlength]
    exact .inr (.inr ⟨_, _, rfl, rfl, slotsAlike_listed h⟩)

/-! ### Readers -/

/-- What is alike is read as the same. -/
def Respects (read : Json → Option α) (like : Likeness) : Prop :=
  ∀ ⦃v w : Json⦄, like v w → read v = read w

theorem respects_eq (read : Json → Option α) : Respects read Eq := fun _ _ h => congrArg read h

theorem Respects.list? (h : Respects read like) : Respects (list? read) (ListAlike like) := by
  rintro v w (_ | hitems)
  · rfl
  · simp only [Json.list?]
    induction hitems with
    | nil => rfl
    | cons first _ ih => rw [List.mapM_cons, List.mapM_cons, h first, ih]

theorem nullable?_of_ne_null (read : Json → Option α) {v : Json} (h : v ≠ .null) :
    nullable? read v = (read v).map some := by
  cases v with
  | null => exact absurd rfl h
  | _ => rfl

/-- Records are null only together. -/
theorem Respects.nullable? (h : Respects read (RecordAlike fs)) :
    Respects (nullable? read) (RecordAlike fs) := by
  intro v w hlike
  have hread := h hlike
  cases hlike with
  | same => rfl
  | named | placed | listed => exact congrArg (Option.map some) hread

variable {a b : Slot}

theorem SlotAlike.required (h : SlotAlike like a b) (hread : Respects read like) :
    a.required read = b.required read := by
  cases h with
  | given h => exact hread h
  | unnamed | cutOff => rfl

theorem SlotAlike.optional (h : SlotAlike like a b) (hread : Respects (nullable? read) like) :
    a.optional read = b.optional read := by
  cases h with
  | given h => exact hread h
  | unnamed | cutOff => rfl

theorem SlotAlike.withDefault (h : SlotAlike like a b) (default : α) (hread : Respects read like) :
    a.withDefault default read = b.withDefault default read := by
  cases h with
  | given h => exact hread h
  | unnamed | cutOff => rfl

/-- A reader that goes by the fields of a record respects likeness if what it makes of the fields
does. -/
theorem respects_record {make : List Slot → Option α}
    (hread : ∀ v, read v = (slots? fs.names v).bind make)
    (hmake : ∀ as bs, SlotsAlike fs as bs → make as = make bs) : Respects read (RecordAlike fs) := by
  intro v w h
  rcases slots?_alike h with rfl | ⟨hv, hw⟩ | ⟨as, bs, hv, hw, halike⟩
  · rfl
  · rw [hread, hread, hv, hw]
  · rw [hread, hread, hv, hw]
    exact hmake as bs halike

end Rollout.Json
