import Mathlib.Data.Bool.AllAny
import Rollout.Master.Address
import Rollout.Proofs.Text
import Rollout.Proofs.Uri

/-!
Where an address of the master leads.

Taking an address apart is told by how one is put together: what is left is the one text that is
trimmed, behind no scheme and before no slash, from which the address comes by decoration. That text
is not checked for more than slashes before the path of the scheduler is put behind it. So there are
three ways to read it: a `?` or a `#` ends the authority early, and then the path is part of what is
asked or is dropped; without them all goes to the path of the scheduler, at the port behind the last
colon, if one stands there.
-/
namespace Rollout.Master

open Text (isBlank Trimmed)

variable {cs bare address host port : List Char} {u : Uri}

/-! ### Decoration -/

/-- What may stand around an address: blank characters, schemes before it and slashes behind it. -/
structure Decoration where
  before : List Char
  schemes : Nat
  slashes : Nat
  after : List Char
  blank_before : ∀ c ∈ before, isBlank c = true
  blank_after : ∀ c ∈ after, isBlank c = true

namespace Decoration

/-- An address behind its schemes and before its slashes. -/
def inner (d : Decoration) (bare : List Char) : List Char :=
  (List.replicate d.schemes Uri.scheme).flatten ++ (bare ++ List.replicate d.slashes '/')

/-- A decorated address. -/
def write (d : Decoration) (bare : List Char) : List Char := d.before ++ d.inner bare ++ d.after

/-- Nothing of the decoration is left in the address. -/
structure Strips (d : Decoration) (bare : List Char) : Prop where
  trimmed : Trimmed (d.inner bare)
  scheme : ¬ Uri.scheme <+: bare ++ List.replicate d.slashes '/'
  slash : bare.getLast? ≠ some '/'

end Decoration

theorem withoutScheme_scheme (cs : List Char) :
    withoutScheme (Uri.scheme ++ cs) = withoutScheme cs := rfl

theorem withoutScheme_eq_self (h : ¬ Uri.scheme <+: cs) : withoutScheme cs = cs := by
  rw [withoutScheme]
  rintro rest rfl
  exact h ⟨rest, rfl⟩

theorem withoutScheme_replicate (n : Nat) (cs : List Char) :
    withoutScheme ((List.replicate n Uri.scheme).flatten ++ cs) = withoutScheme cs := by
  induction n with
  | zero => rfl
  | succ n ih =>
    rw [List.replicate_succ, List.flatten_cons, List.append_assoc, withoutScheme_scheme, ih]

theorem exists_withoutScheme (cs : List Char) : ∃ n,
    cs = (List.replicate n Uri.scheme).flatten ++ withoutScheme cs ∧
      ¬ Uri.scheme <+: withoutScheme cs := by
  fun_induction withoutScheme cs with
  | case1 rest ih =>
    obtain ⟨n, hrest, hnot⟩ := ih
    refine ⟨n + 1, ?_, hnot⟩
    rw [List.replicate_succ, List.flatten_cons, List.append_assoc, ← hrest]
    rfl
  | case2 cs hcs =>
    refine ⟨0, rfl, ?_⟩
    rintro ⟨rest, rfl⟩
    exact hcs rest rfl

theorem withoutSlashes_append (h : cs.getLast? ≠ some '/') (n : Nat) :
    withoutSlashes (cs ++ List.replicate n '/') = cs := by
  have hslashes : ∀ c ∈ List.replicate n '/', (c == '/') = true :=
    fun c hc => beq_iff_eq.2 (List.eq_of_mem_replicate hc)
  rw [withoutSlashes, List.reverse_append, List.reverse_replicate,
    List.dropWhile_append_of_pos hslashes]
  cases hrev : cs.reverse with
  | nil => rw [List.reverse_eq_nil_iff.1 hrev]; rfl
  | cons c rest =>
    have hc : ¬ (c == '/') = true := by
      intro hc
      rw [← List.head?_reverse, hrev, List.head?_cons, beq_iff_eq.1 hc] at h
      exact h rfl
    rw [List.dropWhile_cons_of_neg (p := (· == '/')) hc, ← hrev, List.reverse_reverse]

theorem exists_withoutSlashes (cs : List Char) : ∃ n,
    cs = withoutSlashes cs ++ List.replicate n '/' ∧ (withoutSlashes cs).getLast? ≠ some '/' := by
  refine ⟨(cs.reverse.takeWhile (· == '/')).length, ?_, ?_⟩
  · have hslashes : cs.reverse.takeWhile (· == '/') =
        List.replicate (cs.reverse.takeWhile (· == '/')).length '/' :=
      List.eq_replicate_of_mem fun c hc =>
        beq_iff_eq.1 (List.mem_takeWhile_imp (p := (· == '/')) hc)
    rw [← List.reverse_replicate, ← hslashes, withoutSlashes, ← List.reverse_append,
      List.takeWhile_append_dropWhile, List.reverse_reverse]
  · have hnot := List.head?_dropWhile_not (· == '/') cs.reverse
    rw [withoutSlashes, List.getLast?_reverse]
    intro heq
    rw [heq] at hnot
    exact absurd hnot (by decide)

/-- What is left of an address is what it says, with all of its decoration off. -/
theorem bareAddress_eq_iff : bareAddress address = bare ↔
    ∃ d : Decoration, d.Strips bare ∧ address = d.write bare := by
  constructor
  · rintro rfl
    obtain ⟨htrimmed, before, after, hbefore, hafter, haddress⟩ :=
      Text.trim_eq_iff.1 (Eq.refl (Text.trim address))
    obtain ⟨n, hschemes, hnot⟩ := exists_withoutScheme (Text.trim address)
    obtain ⟨m, hslashes, hlast⟩ := exists_withoutSlashes (withoutScheme (Text.trim address))
    have hinner : Text.trim address = (List.replicate n Uri.scheme).flatten ++
        (bareAddress address ++ List.replicate m '/') := by
      rw [bareAddress, ← hslashes, ← hschemes]
    refine ⟨⟨before, n, m, after, hbefore, hafter⟩, ⟨?_, ?_, hlast⟩, ?_⟩
    · rw [hinner] at htrimmed
      exact htrimmed
    · exact fun h => hnot (hslashes ▸ h)
    · rw [Decoration.write, Decoration.inner, ← hinner]
      exact haddress
  · rintro ⟨d, hstrips, rfl⟩
    have htrim : Text.trim (d.write bare) = d.inner bare :=
      Text.trim_eq_iff.2 ⟨hstrips.trimmed, d.before, d.after, d.blank_before, d.blank_after, rfl⟩
    rw [bareAddress, htrim, Decoration.inner, withoutScheme_replicate,
      withoutScheme_eq_self hstrips.scheme, withoutSlashes_append hstrips.slash]

/-! ### Ports -/

/-- The authority names this port: it is what stands behind a colon that no user and no host in
brackets follows. -/
structure NamesPort (authority port : List Char) : Prop where
  behind : ∃ front, authority = front ++ ':' :: port
  colon : ':' ∉ port
  user : '@' ∉ port
  bracket : ']' ∉ port

theorem NamesPort.eq_afterLast (h : NamesPort cs port) : Uri.afterLast ':' cs = port := by
  obtain ⟨front, rfl⟩ := h.behind
  exact Uri.afterLast_append_cons h.colon front

theorem namesPort_append (h : ']' ∉ cs) (front : List Char) :
    namesPort (front ++ ':' :: cs) = true := by
  have hnot : ']' ∉ ':' :: cs := by simpa using h
  rw [namesPort, List.contains_iff_mem, Uri.afterLast_append hnot]
  exact List.mem_append_right _ List.mem_cons_self

theorem namesPort_of_port (h : NamesPort bare port) : namesPort bare = true := by
  obtain ⟨front, rfl⟩ := h.behind
  exact namesPort_append h.bracket front

/-- What is added to an address that names no port. -/
def added (bare : List Char) : List Char := if namesPort bare then [] else ':' :: defaultPort

theorem withPort_eq (bare : List Char) : withPort bare = bare ++ added bare := by
  rw [withPort, added]
  split
  · exact (List.append_nil bare).symm
  · rfl

theorem namesPort_default (bare : List Char) : NamesPort (bare ++ ':' :: defaultPort) defaultPort :=
  ⟨⟨bare, rfl⟩, by decide, by decide, by decide⟩

/-! ### What an address comes to -/

/-- What is read of an address: its first `?` or `#` ends the authority, and the path of the
scheduler is part of what stands behind it. -/
inductive ReadAs (bare : List Char) : Uri → Prop where
  | plain (hquery : '?' ∉ bare) (hfragment : '#' ∉ bare) :
      ReadAs bare ⟨withPort bare, schedulerPath, none⟩
  | query {front back : List Char} (hfront : ∀ c ∈ front, Uri.endsAuthority c = false)
      (hbare : bare = front ++ '?' :: back) :
      ReadAs bare
        ⟨front, [], some (Uri.splitBefore (· == '#') (back ++ added bare ++ schedulerPath)).1⟩
  | fragment {front back : List Char} (hfront : ∀ c ∈ front, Uri.endsAuthority c = false)
      (hbare : bare = front ++ '#' :: back) : ReadAs bare ⟨front, [], none⟩

theorem endsAuthority_iff {c : Char} :
    Uri.endsAuthority c = true ↔ c = '/' ∨ c = '?' ∨ c = '#' := by
  simp [Uri.endsAuthority, or_assoc]

theorem added_unmarked (bare : List Char) : ∀ c ∈ added bare, Uri.endsAuthority c = false := by
  rw [added]
  split
  · exact List.forall_mem_nil _
  · exact List.all_iff_forall_prop.1 (by decide)

theorem unmarked (hslash : '/' ∉ cs) (hquery : '?' ∉ cs) (hfragment : '#' ∉ cs) :
    ∀ c ∈ cs, Uri.endsAuthority c = false := by
  intro c hc
  rw [Bool.eq_false_iff]
  intro h
  rcases endsAuthority_iff.1 h with rfl | rfl | rfl
  · exact hslash hc
  · exact hquery hc
  · exact hfragment hc

/-- An address has no marks, or something stands before its first mark. -/
theorem marks_cases (hslash : '/' ∉ cs) : ('?' ∉ cs ∧ '#' ∉ cs) ∨
    ∃ front back, (∀ c ∈ front, Uri.endsAuthority c = false) ∧
      (cs = front ++ '?' :: back ∨ cs = front ++ '#' :: back) := by
  have hfront : ∀ c ∈ cs.takeWhile (!Uri.endsAuthority ·), Uri.endsAuthority c = false := by
    intro c hc
    simpa using List.mem_takeWhile_imp hc
  have hsplit : cs.takeWhile (!Uri.endsAuthority ·) ++ cs.dropWhile (!Uri.endsAuthority ·) = cs :=
    List.takeWhile_append_dropWhile
  cases hrest : cs.dropWhile (!Uri.endsAuthority ·) with
  | nil =>
    rw [hrest, List.append_nil] at hsplit
    rw [hsplit] at hfront
    exact .inl ⟨fun h => absurd (hfront _ h) (by decide), fun h => absurd (hfront _ h) (by decide)⟩
  | cons c back =>
    have hmark := List.head?_dropWhile_not (!Uri.endsAuthority ·) cs
    rw [hrest] at hsplit hmark
    have hc : Uri.endsAuthority c = true := by simpa using hmark
    rcases endsAuthority_iff.1 hc with rfl | rfl | rfl
    · exact absurd (hsplit ▸ List.mem_append_right _ List.mem_cons_self) hslash
    · exact .inr ⟨_, back, hfront, .inl hsplit.symm⟩
    · exact .inr ⟨_, back, hfront, .inr hsplit.symm⟩

theorem withPort_unmarked (h : ∀ c ∈ bare, Uri.endsAuthority c = false) :
    ∀ c ∈ withPort bare, Uri.endsAuthority c = false := by
  intro c hc
  rw [withPort_eq, List.mem_append] at hc
  rcases hc with hc | hc
  · exact h c hc
  · exact added_unmarked bare c hc

theorem endsAuthority_schedulerPath : ∀ c ∈ schedulerPath.head?, Uri.endsAuthority c = true := by
  rintro _ ⟨⟩
  rfl

theorem of_endpointOf? (h : endpointOf? address = some u) : bareAddress address ≠ [] ∧
    '/' ∉ bareAddress address ∧
    Uri.ofChars? (withPort (bareAddress address) ++ schedulerPath) = some u := by
  simp only [endpointOf?] at h
  split at h
  · cases h
  · next hbare =>
    rw [Bool.or_eq_true, not_or, List.contains_iff_mem, List.isEmpty_iff] at hbare
    exact ⟨hbare.1, hbare.2, h⟩

theorem readAs_of_endpointOf? (h : endpointOf? address = some u) :
    ReadAs (bareAddress address) u := by
  obtain ⟨-, hslash, h⟩ := of_endpointOf? h
  generalize bareAddress address = bare at hslash h ⊢
  rcases marks_cases hslash with ⟨hquery, hfragment⟩ | ⟨front, back, hfront, rfl | rfl⟩
  · have hauthority := withPort_unmarked (unmarked hslash hquery hfragment)
    rw [Uri.eq_of_ofChars?_append hauthority endsAuthority_schedulerPath h]
    exact .plain hquery hfragment
  · have hread : ReadAs (front ++ '?' :: back) _ := .query hfront rfl
    rw [withPort_eq, List.append_assoc, List.append_assoc] at h
    rw [Uri.eq_of_ofChars?_append hfront (by simp [Uri.endsAuthority]) h]
    rwa [List.append_assoc] at hread
  · rw [withPort_eq, List.append_assoc, List.append_assoc] at h
    rw [Uri.eq_of_ofChars?_append hfront (by simp [Uri.endsAuthority]) h]
    exact .fragment hfront rfl

/-- The URI is that of the scheduler of the master that this text names: nothing but its path is
asked for, at the port that the text names or else at the default one, and some port is named. -/
structure IsScheduler (bare : List Char) (u : Uri) : Prop where
  text : u.text = String.ofList (Uri.scheme ++ u.authority ++ schedulerPath)
  path : u.path = schedulerPath
  query : u.query = none
  named : (∃ port, NamesPort bare port) → u.authority = bare
  unnamed : (¬ ∃ port, NamesPort bare port) → u.authority = bare ++ ':' :: defaultPort
  port : ∃ port, port ≠ [] ∧ NamesPort u.authority port

theorem text_of_path (hpath : u.path = schedulerPath) (hquery : u.query = none) :
    u.text = String.ofList (Uri.scheme ++ u.authority ++ schedulerPath) := by
  simp only [Uri.text, Uri.target, hpath, hquery, List.append_nil]
  rfl

/-- The scheduler is addressed unless a mark or a colon that is followed by no port gets in. -/
theorem isScheduler_iff (h : ReadAs bare u) : IsScheduler bare u ↔
    '?' ∉ bare ∧ '#' ∉ bare ∧
      (namesPort bare = true → ∃ port, port ≠ [] ∧ NamesPort bare port) := by
  cases h with
  | plain hquery hfragment =>
    rw [and_iff_right hquery, and_iff_right hfragment]
    constructor
    · intro hscheduler hnames
      obtain ⟨port, hne, hport⟩ := hscheduler.port
      rw [show withPort bare = bare from if_pos hnames] at hport
      exact ⟨port, hne, hport⟩
    · intro hnames
      cases hcolon : namesPort bare with
      | true =>
        obtain ⟨port, hne, hport⟩ := hnames hcolon
        have hbare : withPort bare = bare := if_pos hcolon
        exact ⟨text_of_path rfl rfl, rfl, rfl, fun _ => hbare,
          fun hnone => absurd ⟨port, hport⟩ hnone, port, hne, hbare.symm ▸ hport⟩
      | false =>
        have hbare : withPort bare = bare ++ ':' :: defaultPort :=
          if_neg (Bool.eq_false_iff.1 hcolon)
        have hnone : ¬ ∃ port, NamesPort bare port := by
          rintro ⟨port, hport⟩
          rw [namesPort_of_port hport] at hcolon
          cases hcolon
        exact ⟨text_of_path rfl rfl, rfl, rfl, fun hsome => absurd hsome hnone, fun _ => hbare,
          defaultPort, by decide, hbare.symm ▸ namesPort_default bare⟩
  | query hfront hbare =>
    refine iff_of_false (fun hscheduler => nomatch hscheduler.path) fun hnot => ?_
    exact hnot.1 (hbare ▸ List.mem_append_right _ List.mem_cons_self)
  | fragment hfront hbare =>
    refine iff_of_false (fun hscheduler => nomatch hscheduler.path) fun hnot => ?_
    exact hnot.2.1 (hbare ▸ List.mem_append_right _ List.mem_cons_self)

/-- What is read of an authority before the path of the scheduler. -/
theorem ofChars?_schedulerPath (h : ∀ c ∈ cs, Uri.endsAuthority c = false) :
    Uri.ofChars? (cs ++ schedulerPath) =
      if Uri.byteLength (Uri.scheme ++ (cs ++ schedulerPath)) ≤ Uri.lengthLimit ∧
          Uri.isAuthority cs = true then
        some ⟨cs, schedulerPath, none⟩
      else none := by
  have hrest : Uri.pathAndQuery schedulerPath = (schedulerPath, none) := by decide
  have hpath : schedulerPath.all Uri.isPathChar = true := by decide
  rw [Uri.ofChars?_append h endsAuthority_schedulerPath, hrest, hpath]
  simp

/-- An address without marks is accepted if with its port it is an authority and not too long. -/
theorem endpointOf?_unmarked (h : ∀ c ∈ bareAddress address, Uri.endsAuthority c = false) :
    endpointOf? address =
      if bareAddress address ≠ [] ∧
          Uri.byteLength (Uri.scheme ++ (withPort (bareAddress address) ++ schedulerPath)) ≤
            Uri.lengthLimit ∧
          Uri.isAuthority (withPort (bareAddress address)) = true then
        some ⟨withPort (bareAddress address), schedulerPath, none⟩
      else none := by
  have hslash : (bareAddress address).contains '/' = false := by
    rw [Bool.eq_false_iff, Ne, List.contains_iff_mem]
    exact fun hmem => absurd (h '/' hmem) (by decide)
  simp only [endpointOf?, hslash, ofChars?_schedulerPath (withPort_unmarked h), Bool.or_false,
    List.isEmpty_iff]
  split_ifs <;> simp_all

theorem endpointOf_of_some {address : String} (h : endpointOf? address.toList = some u) :
    endpointOf address = .ok u := by
  rw [endpointOf, h]

theorem endpointOf_of_none {address : String} (h : endpointOf? address.toList = none) :
    endpointOf address = .error (.invalidAddress address) := by
  rw [endpointOf, h]

/-- An address is refused, or it is read as one of three things. Calls go to the scheduler of the
master that it names, at a port that it names or at the one that is added, exactly if it has no `?`
and no `#`, and no colon behind its last bracket but that of a port. Without `?` and `#` an address
is accepted if with its port it is an authority, it is not too long and there is something to it. -/
theorem scheduler_unless_marked (address : String) :
    let bare := bareAddress address.toList
    (∃ d : Decoration, d.Strips bare ∧ address.toList = d.write bare) ∧
    (endpointOf address = .error (.invalidAddress address) ∨
      ∃ u, endpointOf address = .ok u ∧ ReadAs bare u ∧
        (IsScheduler bare u ↔ '?' ∉ bare ∧ '#' ∉ bare ∧
          (namesPort bare = true → ∃ port, port ≠ [] ∧ NamesPort bare port))) ∧
    ('?' ∉ bare → '#' ∉ bare → ((∃ u, endpointOf address = .ok u) ↔ bare ≠ [] ∧ '/' ∉ bare ∧
      Uri.byteLength (Uri.scheme ++ (withPort bare ++ schedulerPath)) ≤ Uri.lengthLimit ∧
      Uri.isAuthority (withPort bare) = true)) := by
  intro bare
  refine ⟨bareAddress_eq_iff.1 rfl, ?_, fun hquery hfragment => ⟨?_, ?_⟩⟩
  · cases h : endpointOf? address.toList with
    | none => exact .inl (endpointOf_of_none h)
    | some u =>
      have hread := readAs_of_endpointOf? h
      exact .inr ⟨u, endpointOf_of_some h, hread, isScheduler_iff hread⟩
  · rintro ⟨u, hu⟩
    cases h : endpointOf? address.toList with
    | none =>
      rw [endpointOf_of_none h] at hu
      cases hu
    | some u =>
      have hslash : '/' ∉ bare := (of_endpointOf? h).2.1
      rw [endpointOf?_unmarked (unmarked hslash hquery hfragment)] at h
      split at h
      · next hall => exact ⟨hall.1, hslash, hall.2⟩
      · cases h
  · rintro ⟨hne, hslash, hall⟩
    have h := endpointOf?_unmarked (unmarked hslash hquery hfragment)
    rw [if_pos ⟨hne, hall⟩] at h
    exact ⟨_, endpointOf_of_some h⟩

/-- The address is accepted, but it does not lead to the scheduler of the master that it names. -/
def Misleads (address : String) : Prop :=
  ∃ u, endpointOf address = .ok u ∧ ¬ IsScheduler (bareAddress address.toList) u

/-- What stands behind the last colon is no port if it is nothing or has a user in it. -/
theorem misleads_of_endpointOf? {address : String} (h : endpointOf? address.toList = some u)
    (hnot : '?' ∈ bareAddress address.toList ∨ '#' ∈ bareAddress address.toList ∨
      namesPort (bareAddress address.toList) = true ∧
        (Uri.afterLast ':' (bareAddress address.toList) = [] ∨
          '@' ∈ Uri.afterLast ':' (bareAddress address.toList))) : Misleads address := by
  refine ⟨u, endpointOf_of_some h, fun hscheduler => ?_⟩
  obtain ⟨hquery, hfragment, hport⟩ := (isScheduler_iff (readAs_of_endpointOf? h)).1 hscheduler
  rcases hnot with hnot | hnot | ⟨hnames, hnot⟩
  · exact hquery hnot
  · exact hfragment hnot
  · obtain ⟨port, hne, hport⟩ := hport hnames
    rw [hport.eq_afterLast] at hnot
    exact hnot.elim hne hport.user

/-- A query, a fragment, a colon without a port and a colon before a user all get in. -/
theorem endpointOf_marked :
    Misleads "h?x=1" ∧ Misleads "h#f" ∧ Misleads "h:" ∧ Misleads "user:pw@h" := by
  have hquery : endpointOf? "h?x=1".toList =
      some ⟨['h'], [], some "x=1:5050/api/v1/scheduler".toList⟩ := by decide
  have hfragment : endpointOf? "h#f".toList = some ⟨['h'], [], none⟩ := by decide
  have hcolon : endpointOf? "h:".toList = some ⟨"h:".toList, schedulerPath, none⟩ := by decide
  have huser : endpointOf? "user:pw@h".toList =
      some ⟨"user:pw@h".toList, schedulerPath, none⟩ := by decide
  exact ⟨misleads_of_endpointOf? hquery (by decide), misleads_of_endpointOf? hfragment (by decide),
    misleads_of_endpointOf? hcolon (by decide), misleads_of_endpointOf? huser (by decide)⟩

end Rollout.Master
