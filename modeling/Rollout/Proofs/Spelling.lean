import Mathlib.Data.Bool.AllAny
import Rollout.Proofs.Address

/-!
The spellings of one address.

A host is a name, or a literal in brackets with colons of its own. Whatever decorates it, taking the
decoration off gives the host and its port back: they are visible and end in no slash, and no scheme
begins with them, although a host may be spelled like one. So all the spellings of a master lead to
one URI. The one thing that can still go wrong is the number of colons: an authority has a limit for
them, and it counts those in brackets too.
-/
namespace Rollout.Master

open Text (isBlank Trimmed)

variable {host digits : List Char} {port : Option (List Char)}

/-- The digits of numbers to the base sixteen, in both cases. -/
def hexDigits : List Char := "0123456789abcdefABCDEF".toList

/-- A host: a name of letters, digits and three marks, or a literal of digits and colons in
brackets. -/
inductive Host : List Char → Prop where
  | name {cs : List Char} (hne : cs ≠ [])
      (h : ∀ c ∈ cs, c.isAlphanum = true ∨ c = '.' ∨ c = '-' ∨ c = '_') : Host cs
  | literal {cs : List Char} (hne : cs ≠ []) (h : ∀ c ∈ cs, c ∈ hexDigits ∨ c = ':') :
      Host ('[' :: (cs ++ [']']))

theorem isPlain_of_name {c : Char} (h : c.isAlphanum = true ∨ c = '.' ∨ c = '-' ∨ c = '_') :
    Uri.isPlain c = true := by
  rcases h with h | rfl | rfl | rfl
  · rw [Uri.isPlain, h, Bool.true_or]
  all_goals decide

/-- No mark is in a name. -/
theorem notMem_of_name {cs : List Char} {mark : Char} (hmark : Uri.isPlain mark = false)
    (h : ∀ c ∈ cs, c.isAlphanum = true ∨ c = '.' ∨ c = '-' ∨ c = '_') : mark ∉ cs := by
  intro hmem
  rw [isPlain_of_name (h mark hmem)] at hmark
  cases hmark

theorem isPlain_of_hexDigits : ∀ c ∈ hexDigits, Uri.isPlain c = true :=
  List.all_eq_true.1 (by decide)

theorem plain_or_colon {cs : List Char} (h : ∀ c ∈ cs, c ∈ hexDigits ∨ c = ':') :
    ∀ c ∈ cs, Uri.isPlain c = true ∨ c = ':' :=
  fun c hc => (h c hc).imp_left (isPlain_of_hexDigits c)

theorem isPlain_of_isDigit {c : Char} (h : c.isDigit = true) : Uri.isPlain c = true := by
  rw [Uri.isPlain, Char.isAlphanum, h, Bool.or_true, Bool.true_or]

theorem visible_of_isAlphanum {c : Char} (h : c.isAlphanum = true) :
    0x20 < c.toNat ∧ c.toNat < 0x7F := by
  rcases Bool.or_eq_true_iff.1 h with hletter | hdigit
  · rcases Bool.or_eq_true_iff.1 hletter with hupper | hlower
    · have hc : 65 ≤ c.toNat ∧ c.toNat ≤ 90 := of_decide_eq_true hupper
      omega
    · have hc : 97 ≤ c.toNat ∧ c.toNat ≤ 122 :=
        (Bool.and_eq_true_iff.1 hlower).imp of_decide_eq_true of_decide_eq_true
      omega
  · have hc : 48 ≤ c.toNat ∧ c.toNat ≤ 57 :=
      (Bool.and_eq_true_iff.1 hdigit).imp of_decide_eq_true of_decide_eq_true
    omega

/-- Plain characters are visible and end no authority. -/
theorem visible_of_isPlain {c : Char} (h : Uri.isPlain c = true) :
    (0x20 < c.toNat ∧ c.toNat < 0x7F) ∧ Uri.endsAuthority c = false := by
  rw [Uri.isPlain, Bool.or_eq_true, List.contains_iff_mem] at h
  rcases h with h | h
  · refine ⟨visible_of_isAlphanum h, Bool.eq_false_iff.2 fun hmark => ?_⟩
    rcases endsAuthority_iff.1 hmark with rfl | rfl | rfl <;> exact absurd h (by decide)
  · have hmarks : ∀ d ∈ "!$&'()*+,-.;=_~".toList,
        (0x20 < d.toNat ∧ d.toNat < 0x7F) ∧ Uri.endsAuthority d = false :=
      List.all_iff_forall_prop.1 (by decide)
    exact hmarks c h

/-- The characters of a host are plain, or they are its colons and brackets. -/
theorem Host.cases_char (h : Host host) :
    ∀ c ∈ host, Uri.isPlain c = true ∨ c = ':' ∨ c = '[' ∨ c = ']' := by
  cases h with
  | name hne h => exact fun c hc => .inl (isPlain_of_name (h c hc))
  | literal hne h =>
    intro c hc
    rcases List.mem_cons.1 hc with rfl | hc
    · exact .inr (.inr (.inl rfl))
    rcases List.mem_append.1 hc with hc | hc
    · exact (plain_or_colon h c hc).imp_right .inl
    · exact .inr (.inr (.inr (List.mem_singleton.1 hc)))

theorem Host.ne_nil (h : Host host) : host ≠ [] := by
  cases h with
  | name hne h => exact hne
  | literal hne h => exact List.cons_ne_nil _ _

theorem Host.visible (h : Host host) :
    ∀ c ∈ host, (0x20 < c.toNat ∧ c.toNat < 0x7F) ∧ Uri.endsAuthority c = false := by
  intro c hc
  rcases h.cases_char c hc with hc | rfl | rfl | rfl
  · exact visible_of_isPlain hc
  all_goals decide

/-! ### The authority -/

/-- Within the limit a scan goes past a host as if there were none. -/
theorem Host.scan (h : Host host) (hcount : host.count ':' ≤ Uri.colonLimit) :
    ∃ s : Uri.Scan, (s.colons = 0 ∧ s.opened = s.closed ∧ s.percent = false) ∧
      ∀ rest, (host ++ rest).foldlM Uri.Scan.step .initial = rest.foldlM Uri.Scan.step s := by
  cases h with
  | name hne h =>
    exact ⟨.initial, ⟨rfl, rfl, rfl⟩, Uri.foldlM_plain fun c hc => isPlain_of_name (h c hc)⟩
  | @literal cs hne h =>
    refine ⟨⟨0, true, true, false⟩, ⟨rfl, rfl, rfl⟩, fun rest => ?_⟩
    have hinner := Uri.foldlM_colons (s := ⟨0, true, false, false⟩) (plain_or_colon h)
      (by simpa using hcount) (']' :: rest)
    rw [List.cons_append, List.append_assoc, List.singleton_append, List.foldlM_cons]
    exact hinner

/-- More colons than the limit end a scan. -/
theorem Host.scan_too_many (h : Host host) (hcount : Uri.colonLimit < host.count ':')
    (rest : List Char) : (host ++ rest).foldlM Uri.Scan.step .initial = none := by
  cases h with
  | name hne h =>
    rw [List.count_eq_zero.2 (notMem_of_name (by decide) h)] at hcount
    exact absurd hcount (by decide)
  | @literal cs hne h =>
    have hinner := Uri.foldlM_too_many (s := ⟨0, true, false, false⟩) (plain_or_colon h)
      (by decide) (by simpa using hcount) (']' :: rest)
    rw [List.cons_append, List.append_assoc, List.singleton_append, List.foldlM_cons]
    exact hinner

/-- A host with a port is an authority if there are not too many colons in it. -/
theorem Host.isAuthority (h : Host host)
    (hdigits : ∀ c ∈ digits, c.isDigit = true) :
    Uri.isAuthority (host ++ ':' :: digits) = decide (host.count ':' ≤ Uri.colonLimit) := by
  have hnil : (host ++ ':' :: digits).isEmpty = false := by simp
  have hlast : (host ++ ':' :: digits).getLast? ≠ some '@' := by
    intro hat
    rcases List.mem_append.1 (List.mem_of_getLast? hat) with hmem | hmem
    · exact absurd (h.cases_char '@' hmem) (by decide)
    · rcases List.mem_cons.1 hmem with heq | hmem
      · cases heq
      · exact absurd (hdigits '@' hmem) (by decide)
  rw [Uri.isAuthority, hnil, bne_iff_ne.2 hlast]
  by_cases hcount : host.count ':' ≤ Uri.colonLimit
  · obtain ⟨s, ⟨hcolons, hbrackets, hpercent⟩, hscan⟩ := h.scan hcount
    have hport : (':' :: digits).foldlM Uri.Scan.step s = some { s with colons := 1 } := by
      rw [List.foldlM_cons, Uri.Scan.step_colon (by rw [hcolons]; decide), hcolons]
      have hplain := Uri.foldlM_plain (s := { s with colons := 1 })
        (fun c hc => isPlain_of_isDigit (hdigits c hc)) []
      rwa [List.append_nil] at hplain
    rw [hscan, hport]
    simp [Uri.Scan.isFinal, hbrackets, hpercent, hcount]
  · rw [h.scan_too_many (Nat.lt_of_not_le hcount)]
    simp [hcount]

/-! ### The address -/

/-- The part of an address that is not decoration. -/
def hostAndPort (host : List Char) (port : Option (List Char)) : List Char :=
  host ++ port.elim [] (':' :: ·)

theorem namesPort_host (h : Host host) : namesPort host = false := by
  rw [namesPort, Bool.eq_false_iff, Ne, List.contains_iff_mem]
  cases h with
  | name hne h =>
    rw [Uri.afterLast_of_notMem (notMem_of_name (by decide) h)]
    exact notMem_of_name (by decide) h
  | literal hne h =>
    rw [← List.cons_append, Uri.afterLast_concat]
    exact List.not_mem_nil

/-- A port that is named is kept, and otherwise the default one is added. -/
theorem withPort_hostAndPort (h : Host host)
    (hport : ∀ digits ∈ port, digits ≠ [] ∧ ∀ c ∈ digits, c.isDigit = true) :
    withPort (hostAndPort host port) = host ++ ':' :: port.getD defaultPort := by
  cases port with
  | none =>
    rw [hostAndPort, Option.elim_none, List.append_nil, withPort, namesPort_host h]
    rfl
  | some digits =>
    have hnone : ']' ∉ digits := fun hmem => absurd ((hport digits rfl).2 ']' hmem) (by decide)
    rw [hostAndPort, Option.elim_some, withPort, namesPort_append hnone]
    rfl

theorem visible_hostAndPort (h : Host host)
    (hport : ∀ digits ∈ port, digits ≠ [] ∧ ∀ c ∈ digits, c.isDigit = true) :
    ∀ c ∈ hostAndPort host port,
      (0x20 < c.toNat ∧ c.toNat < 0x7F) ∧ Uri.endsAuthority c = false := by
  intro c hc
  rcases List.mem_append.1 hc with hc | hc
  · exact h.visible c hc
  cases port with
  | none => cases hc
  | some digits =>
    rcases List.mem_cons.1 hc with rfl | hc
    · decide
    · exact visible_of_isPlain (isPlain_of_isDigit ((hport digits rfl).2 c hc))

/-- No scheme begins with a host and port: the only colon of a name is the one before the port, and
no slash follows it. -/
theorem scheme_not_prefix (h : Host host)
    (hport : ∀ digits ∈ port, digits ≠ [] ∧ ∀ c ∈ digits, c.isDigit = true) (n : Nat) :
    ¬ Uri.scheme <+: hostAndPort host port ++ List.replicate n '/' := by
  rintro ⟨rest, heq⟩
  cases h with
  | literal hne h => cases heq
  | name hne h =>
    have hnone : ∀ c ∈ host, (c != ':') = true := by
      intro c hc
      refine bne_iff_ne.2 ?_
      rintro rfl
      exact notMem_of_name (by decide) h hc
    have hcut := congrArg (List.dropWhile (· != ':')) heq
    rw [hostAndPort, List.append_assoc, List.dropWhile_append_of_pos hnone] at hcut
    change ':' :: '/' :: '/' :: rest = _ at hcut
    cases port with
    | none =>
      have hslashes : ∀ c ∈ List.replicate n '/', (c != ':') = true := by
        intro c hc
        rw [List.eq_of_mem_replicate hc]
        decide
      rw [Option.elim_none, List.nil_append, List.dropWhile_eq_nil_iff.2 hslashes] at hcut
      cases hcut
    | some digits =>
      obtain ⟨hne, hdigits⟩ := hport digits rfl
      cases digits with
      | nil => exact hne rfl
      | cons c digits =>
        change _ = ':' :: c :: (digits ++ List.replicate n '/') at hcut
        have hslash : '/' = c := (List.cons.inj (List.cons.inj hcut).2).1
        exact absurd (hdigits '/' (hslash ▸ List.mem_cons_self)) (by decide)

theorem strips_hostAndPort (d : Decoration) (h : Host host)
    (hport : ∀ digits ∈ port, digits ≠ [] ∧ ∀ c ∈ digits, c.isDigit = true) :
    d.Strips (hostAndPort host port) := by
  have hvisible := visible_hostAndPort h hport
  have hschemes : ∀ c ∈ Uri.scheme, 0x20 < c.toNat ∧ c.toNat < 0x7F :=
    List.all_iff_forall_prop.1 (by decide)
  refine ⟨Text.trimmed_of_forall fun c hc => Text.isBlank_of_visible ?_,
    scheme_not_prefix h hport d.slashes, fun hlast => ?_⟩
  · rcases List.mem_append.1 hc with hc | hc
    · obtain ⟨scheme, hscheme, hc⟩ := List.mem_flatten.1 hc
      exact hschemes c (List.eq_of_mem_replicate hscheme ▸ hc)
    rcases List.mem_append.1 hc with hc | hc
    · exact (hvisible c hc).1
    · rw [List.eq_of_mem_replicate hc]
      decide
  · exact absurd (hvisible '/' (List.mem_of_getLast? hlast)).2 (by decide)

theorem bareAddress_write (d : Decoration) (h : Host host)
    (hport : ∀ digits ∈ port, digits ≠ [] ∧ ∀ c ∈ digits, c.isDigit = true) :
    bareAddress (d.write (hostAndPort host port)) = hostAndPort host port :=
  bareAddress_eq_iff.2 ⟨d, strips_hostAndPort d h hport, rfl⟩

theorem isDigit_of_port
    (hport : ∀ digits ∈ port, digits ≠ [] ∧ ∀ c ∈ digits, c.isDigit = true) :
    ∀ c ∈ port.getD defaultPort, c.isDigit = true := by
  cases port with
  | none => exact List.all_eq_true.1 (by decide)
  | some digits => exact (hport digits rfl).2

/-- The length of the address that is called is its length in bytes. -/
theorem byteLength_endpoint (h : Host host) (hdigits : ∀ c ∈ digits, c.isDigit = true) :
    Uri.byteLength (Uri.scheme ++ (host ++ ':' :: digits ++ schedulerPath)) =
      (Uri.scheme ++ (host ++ ':' :: digits ++ schedulerPath)).length := by
  refine Uri.byteLength_ascii fun c hc => ?_
  have hscheme : ∀ c ∈ Uri.scheme, c.toNat < 0x80 := List.all_iff_forall_prop.1 (by decide)
  have hpath : ∀ c ∈ schedulerPath, c.toNat < 0x80 := List.all_iff_forall_prop.1 (by decide)
  rw [List.mem_append, List.mem_append, List.mem_append, List.mem_cons] at hc
  rcases hc with hc | (hc | rfl | hc) | hc
  · exact hscheme c hc
  · exact (h.visible c hc).1.2.trans (by decide)
  · decide
  · exact (visible_of_isPlain (isPlain_of_isDigit (hdigits c hc))).1.2.trans (by decide)
  · exact hpath c hc

/-- A host with at most eight colons, with or without a port, is called at one URI, however its
address is decorated: at the port that is named, or at the default one. With more colons the address
is refused. -/
theorem endpointOf_decorated (d : Decoration) (h : Host host)
    (hport : ∀ digits ∈ port, digits ≠ [] ∧ ∀ c ∈ digits, c.isDigit = true)
    (hlength : (Uri.scheme ++ (host ++ ':' :: port.getD defaultPort ++ schedulerPath)).length ≤
      Uri.lengthLimit) :
    let address := String.ofList (d.write (hostAndPort host port))
    let u : Uri := ⟨host ++ ':' :: port.getD defaultPort, schedulerPath, none⟩
    (host.count ':' ≤ Uri.colonLimit → endpointOf address = .ok u ∧ u.text = String.ofList
      (Uri.scheme ++ (host ++ ':' :: port.getD defaultPort ++ schedulerPath))) ∧
    (Uri.colonLimit < host.count ':' → endpointOf address = .error (.invalidAddress address)) := by
  intro address u
  have hdigits := isDigit_of_port hport
  have hvisible := visible_hostAndPort h hport
  have hne : hostAndPort host port ≠ [] := List.append_ne_nil_of_left_ne_nil h.ne_nil _
  have hbare := bareAddress_write d h hport
  have hread := endpointOf?_unmarked (hbare ▸ fun c hc => (hvisible c hc).2)
  have hlist : address.toList = d.write (hostAndPort host port) := String.toList_ofList
  rw [hbare, withPort_hostAndPort h hport, byteLength_endpoint h hdigits, h.isAuthority hdigits,
    ← hlist] at hread
  constructor
  · intro hcount
    rw [if_pos ⟨hne, hlength, decide_eq_true hcount⟩] at hread
    exact ⟨endpointOf_of_some hread, text_of_path rfl rfl⟩
  · intro hcount
    rw [if_neg fun hall => Nat.not_le.2 hcount (of_decide_eq_true hall.2.2)] at hread
    exact endpointOf_of_none hread

/-- A host that is spelled like the scheme, in full decoration. -/
theorem endpointOf_decorated_http : Host "http".toList ∧
    endpointOf " \thttp://http://http///\n" = .ok ⟨"http:5050".toList, schedulerPath, none⟩ := by
  have hhost : Host "http".toList := .name (by decide) (List.all_iff_forall_prop.1 (by decide))
  let d : Decoration := ⟨[' ', '\t'], 2, 3, ['\n'], List.all_eq_true.1 (by decide),
    List.all_eq_true.1 (by decide)⟩
  have haddress : String.ofList (d.write (hostAndPort "http".toList none)) =
      " \thttp://http://http///\n" := by decide
  have hport : ∀ digits ∈ (none : Option (List Char)),
      digits ≠ [] ∧ ∀ c ∈ digits, c.isDigit = true := nofun
  have hendpoint := endpointOf_decorated d hhost hport (by decide)
  exact ⟨hhost, haddress ▸ (hendpoint.1 (by decide)).1⟩

/-- Nine colons are too many, also in brackets. -/
theorem endpointOf_nine_colons : Host "[1:2:3:4:5:6:7:8:9:a]".toList ∧
    endpointOf "[1:2:3:4:5:6:7:8:9:a]" = .error (.invalidAddress "[1:2:3:4:5:6:7:8:9:a]") := by
  have hhost : Host ('[' :: ("1:2:3:4:5:6:7:8:9:a".toList ++ [']'])) :=
    .literal (by decide) (List.all_iff_forall_prop.1 (by decide))
  exact ⟨hhost, by decide⟩

end Rollout.Master
