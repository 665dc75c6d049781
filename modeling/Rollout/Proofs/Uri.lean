import Mathlib.Data.List.TakeWhile
import Rollout.Uri

/-!
How an address is taken apart.

The first `/`, `?` or `#` ends the authority, and what stands behind it never changes the authority.
An authority is accepted by a scan that plain characters leave as it is, so that only its marks have
to be followed. Colons count anew behind a host in brackets and behind a user, and inside brackets
there may be eight of them.
-/
namespace Rollout.Uri

variable {cs front back authority rest : List Char} {c : Char} {u : Uri} {s : Scan}

/-! ### Splitting -/

theorem splitBefore_append {stop : Char → Bool} (hfront : ∀ c ∈ front, stop c = false)
    (hback : ∀ c ∈ back.head?, stop c = true) :
    splitBefore stop (front ++ back) = (front, back) := by
  have hgo : ∀ c ∈ front, (!stop c) = true := fun c hc => by rw [hfront c hc]; rfl
  rw [splitBefore, List.takeWhile_append_of_pos hgo, List.dropWhile_append_of_pos hgo]
  cases back with
  | nil => rw [List.takeWhile_nil, List.dropWhile_nil, List.append_nil]
  | cons c back =>
    simp [hback c rfl]

theorem afterLast_append (h : c ∉ back) (front : List Char) :
    afterLast c (front ++ back) = afterLast c front ++ back := by
  have hgo : ∀ d ∈ back.reverse, (d != c) = true := by
    intro d hd
    exact bne_iff_ne.2 fun heq => h (heq ▸ List.mem_reverse.1 hd)
  rw [afterLast, List.reverse_append, List.takeWhile_append_of_pos hgo, List.reverse_append,
    List.reverse_reverse]
  rfl

theorem afterLast_of_notMem (h : c ∉ cs) : afterLast c cs = cs := afterLast_append h []

theorem afterLast_concat (c : Char) (front : List Char) : afterLast c (front ++ [c]) = [] := by
  simp [afterLast]

theorem afterLast_append_cons (h : c ∉ back) (front : List Char) :
    afterLast c (front ++ c :: back) = back := by
  rw [List.append_cons, afterLast_append h, afterLast_concat, List.nil_append]

/-! ### Authorities -/

theorem isPlain_marks : isPlain ':' = false ∧ isPlain '[' = false ∧ isPlain ']' = false ∧
    isPlain '@' = false ∧ isPlain '%' = false := by decide

theorem Scan.step_of_isPlain (h : isPlain c = true) : s.step c = some s := by
  obtain ⟨hcolon, hopen, hclose, hat, hpercent⟩ := isPlain_marks
  have hne {d : Char} (hd : isPlain d = false) : c ≠ d := by
    rintro rfl
    rw [h] at hd
    cases hd
  rw [Scan.step, if_neg (hne hcolon), if_neg (hne hopen), if_neg (hne hclose), if_neg (hne hat),
    if_neg (hne hpercent), if_pos h]

/-- Plain characters leave a scan as it is. -/
theorem foldlM_plain (h : ∀ c ∈ cs, isPlain c = true) (rest : List Char) :
    (cs ++ rest).foldlM Scan.step s = rest.foldlM Scan.step s := by
  induction cs with
  | nil => rfl
  | cons c cs ih =>
    rw [List.cons_append, List.foldlM_cons, Scan.step_of_isPlain (h c List.mem_cons_self)]
    exact ih fun d hd => h d (List.mem_cons_of_mem c hd)

theorem Scan.step_colon (h : s.colons < colonLimit) :
    s.step ':' = some { s with colons := s.colons + 1 } := by
  rw [Scan.step, if_pos rfl, if_neg (Nat.not_le.2 h)]

theorem Scan.step_colon_of_limit (h : colonLimit ≤ s.colons) : s.step ':' = none := by
  rw [Scan.step, if_pos rfl, if_pos h]

/-- A scan counts the colons up to their limit. -/
theorem foldlM_colons (h : ∀ c ∈ cs, isPlain c = true ∨ c = ':')
    (hlimit : s.colons + cs.count ':' ≤ colonLimit) (rest : List Char) :
    (cs ++ rest).foldlM Scan.step s =
      rest.foldlM Scan.step { s with colons := s.colons + cs.count ':' } := by
  induction cs generalizing s with
  | nil => rfl
  | cons c cs ih =>
    have hcs : ∀ d ∈ cs, isPlain d = true ∨ d = ':' := fun d hd => h d (List.mem_cons_of_mem c hd)
    rw [List.cons_append, List.foldlM_cons]
    by_cases hc : c = ':'
    · subst hc
      rw [List.count_cons_self] at hlimit ⊢
      rw [Scan.step_colon (by omega), Option.bind_eq_bind, Option.bind_some,
        ih hcs (by simpa only [Nat.add_assoc, Nat.add_comm 1] using hlimit)]
      simp only [Nat.add_assoc, Nat.add_comm 1]
    · have hplain := (h c List.mem_cons_self).resolve_right hc
      rw [List.count_cons_of_ne hc] at hlimit ⊢
      rw [Scan.step_of_isPlain hplain, Option.bind_eq_bind, Option.bind_some, ih hcs hlimit]

/-- One colon more than the limit ends a scan. -/
theorem foldlM_too_many (h : ∀ c ∈ cs, isPlain c = true ∨ c = ':') (hs : s.colons ≤ colonLimit)
    (hlimit : colonLimit < s.colons + cs.count ':') (rest : List Char) :
    (cs ++ rest).foldlM Scan.step s = none := by
  induction cs generalizing s with
  | nil => exact absurd hs (Nat.not_le.2 hlimit)
  | cons c cs ih =>
    have hcs : ∀ d ∈ cs, isPlain d = true ∨ d = ':' := fun d hd => h d (List.mem_cons_of_mem c hd)
    rw [List.cons_append, List.foldlM_cons]
    by_cases hc : c = ':'
    · subst hc
      rw [List.count_cons_self] at hlimit
      rcases Nat.lt_or_ge s.colons colonLimit with hless | hmost
      · rw [Scan.step_colon hless, Option.bind_eq_bind, Option.bind_some]
        exact ih hcs hless (by dsimp only; omega)
      · rw [Scan.step_colon_of_limit hmost]
        rfl
    · have hplain := (h c List.mem_cons_self).resolve_right hc
      rw [List.count_cons_of_ne hc] at hlimit
      rw [Scan.step_of_isPlain hplain, Option.bind_eq_bind, Option.bind_some]
      exact ih hcs hs hlimit

/-! ### Reading -/

/-- What is read of an authority and what stands behind it. -/
theorem ofChars?_append (ha : ∀ c ∈ authority, endsAuthority c = false)
    (hr : ∀ c ∈ rest.head?, endsAuthority c = true) :
    ofChars? (authority ++ rest) =
      if byteLength (scheme ++ (authority ++ rest)) ≤ lengthLimit && isAuthority authority &&
          (pathAndQuery rest).1.all isPathChar &&
          ((pathAndQuery rest).2.getD []).all isQueryChar then
        some ⟨authority, (pathAndQuery rest).1, (pathAndQuery rest).2⟩
      else none := by
  simp only [ofChars?, splitBefore_append ha hr]

theorem eq_of_ofChars?_append (ha : ∀ c ∈ authority, endsAuthority c = false)
    (hr : ∀ c ∈ rest.head?, endsAuthority c = true) (h : ofChars? (authority ++ rest) = some u) :
    u = ⟨authority, (pathAndQuery rest).1, (pathAndQuery rest).2⟩ := by
  rw [ofChars?_append ha hr] at h
  split at h
  · exact (Option.some.inj h).symm
  · cases h

theorem byteLength_ascii (h : ∀ c ∈ cs, c.toNat < 0x80) : byteLength cs = cs.length := by
  induction cs with
  | nil => rfl
  | cons c cs ih =>
    have hc : c.utf8Size = 1 := by
      refine Char.utf8Size_eq_one_iff.2 ?_
      exact UInt32.le_iff_toNat_le.2 (Nat.le_of_lt_succ (h c List.mem_cons_self))
    have hcs := ih fun d hd => h d (List.mem_cons_of_mem c hd)
    simp only [byteLength, List.foldr_cons, List.length_cons] at hcs ⊢
    rw [hcs, hc, Nat.add_comm]

end Rollout.Uri
