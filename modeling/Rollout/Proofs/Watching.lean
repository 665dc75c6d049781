import Rollout.Watchdog
import Mathlib.Data.List.Infix
import Mathlib.Order.Bounds.Basic

/-!
Watching: when the watchdog reports, what its reports show, and when it ends.

A timeline alone says, for each instant, which picture is current, whether the watchdog has to end,
and whether a report is due: any whole number of waits after a signal and before the next one, as
long as nothing has ended the watch. Each turn of the loop keeps to this, so every watch does. A
wait is the timeout, or thirty years if the timeout is longer.
-/
namespace Rollout

/-- The picture that a signal brings. -/
def Signal.picture? : Signal → Option Progress
  | .progress p => some p
  | .progressClosed | .shutdown => none

/-- The watchdog ends on this signal, whatever the progress. -/
def Signal.closes : Signal → Bool
  | .progress _ => false
  | .progressClosed | .shutdown => true

namespace Watchdog

/-- Signals in order, each later than the one before it and the first one later than `since`. -/
abbrev Timeline (since : Nat) (signals : List (Nat × Signal)) : Prop :=
  (since :: signals.map (·.1)).Pairwise (· < ·)

/-- The current picture: the last one that was published by then. -/
def pictureAt (p : Progress) (signals : List (Nat × Signal)) (t : Nat) : Progress :=
  ((signals.filter (·.1 ≤ t)).filterMap (·.2.picture?)).getLast?.getD p

/-- At this instant the progress is done, or a signal closes the watch. -/
def Ends (p : Progress) (signals : List (Nat × Signal)) (t : Nat) : Prop :=
  (pictureAt p signals t).isDone ∨ ∃ signal, (t, signal) ∈ signals ∧ signal.closes

/-- A whole number of waits have passed since the last signal (or the start, if there is none yet),
the next signal is still to come, and nothing has ended the watch. -/
def Due (wait : Nat) (p : Progress) (since : Nat) (signals : List (Nat × Signal)) (t : Nat) :
    Prop :=
  ∃ a b k, [a, b] <:+: since :: signals.map (·.1) ∧ t = a + (k + 1) * wait ∧ t < b ∧
    ∀ u, since ≤ u → u < b → ¬ Ends p signals u

/-- What a watch comes to that begins at `since`, after `n` reports. -/
structure Accounts (timeout n : Nat) (p : Progress) (since : Nat) (signals : List (Nat × Signal))
    (w : Watch) : Prop where
  ended : ∀ t, w.ended = some t ↔ IsLeast {u | since ≤ u ∧ Ends p signals u} t
  reports : ∀ t q, (t, q) ∈ w.reports ↔
    Due (Wait.span timeout) p since signals t ∧ q = pictureAt p signals t
  ordered : (w.reports.map (·.1)).Pairwise (· < ·)
  counted : w.warnings = n + w.reports.length

section Timeline

variable {p : Progress} {signals rest : List (Nat × Signal)} {signal : Signal}
  {wait timeout n since time t : Nat}

/-! ### The current picture -/

theorem pictureAt_of_lt (h : ∀ s ∈ signals, t < s.1) : pictureAt p signals t = p := by
  have hnone : signals.filter (·.1 ≤ t) = [] :=
    List.filter_eq_nil_iff.2 fun s hs => by simpa using h s hs
  rw [pictureAt, hnone]
  rfl

theorem pictureAt_cons_of_le (h : time ≤ t) : pictureAt p ((time, signal) :: rest) t =
    pictureAt (signal.picture?.getD p) rest t := by
  rw [pictureAt, pictureAt, List.filter_cons_of_pos (by simpa using h)]
  cases hq : signal.picture? with
  | none => simp only [List.filterMap_cons, hq, Option.getD_none]
  | some q => simp only [List.filterMap_cons, hq, List.getLast?_cons, Option.getD_some]

/-! ### Times in order -/

theorem lt_of_timeline (h : Timeline since signals) : ∀ s ∈ signals, since < s.1 :=
  fun _ hs => List.rel_of_pairwise_cons h (List.mem_map_of_mem hs)

theorem timeline_cons (hs : since < time) (h : Timeline time rest) :
    Timeline since ((time, signal) :: rest) :=
  List.pairwise_cons.2
    ⟨List.forall_mem_cons.2 ⟨hs, fun _ hu => hs.trans (List.rel_of_pairwise_cons h hu)⟩, h⟩

/-- Neighbours in a timeline come in order, and after the start. -/
theorem le_and_lt_of_neighbours {a b : Nat} (h : Timeline since signals)
    (hab : [a, b] <:+: since :: signals.map (·.1)) : since ≤ a ∧ a < b := by
  refine ⟨?_, List.pairwise_pair.1 (h.sublist hab.sublist)⟩
  rcases List.mem_cons.1 (hab.subset List.mem_cons_self) with rfl | ha
  · exact le_rfl
  · exact (List.rel_of_pairwise_cons h ha).le

/-! ### The end -/

theorem ends_of_lt (h : ∀ s ∈ signals, t < s.1) : Ends p signals t ↔ p.isDone := by
  have hnone : ¬ ∃ signal, (t, signal) ∈ signals ∧ signal.closes :=
    fun ⟨_, hs, _⟩ => Nat.lt_irrefl t (h _ hs)
  rw [Ends, pictureAt_of_lt h, or_iff_left hnone]

theorem ends_cons_of_le (h : time ≤ t) : Ends p ((time, signal) :: rest) t ↔
    (t = time ∧ signal.closes) ∨ Ends (signal.picture?.getD p) rest t := by
  have hsignals : (∃ s, (t, s) ∈ (time, signal) :: rest ∧ s.closes) ↔
      (t = time ∧ signal.closes) ∨ ∃ s, (t, s) ∈ rest ∧ s.closes := by
    simp only [List.mem_cons, Prod.mk.injEq, or_and_right, exists_or, and_assoc, exists_and_left,
      exists_eq_left]
  rw [Ends, Ends, pictureAt_cons_of_le h, hsignals, or_left_comm]

/-- Nothing ends a watch before the first signal, if the progress is not done. -/
theorem le_of_ends (hp : ¬ p.isDone) (h : Timeline time rest)
    (he : Ends p ((time, signal) :: rest) t) : time ≤ t := by
  by_contra hlt
  have hlater : ∀ s ∈ (time, signal) :: rest, t < s.1 :=
    List.forall_mem_cons.2 ⟨not_le.1 hlt, fun s hs => (not_le.1 hlt).trans (lt_of_timeline h s hs)⟩
  exact hp ((ends_of_lt hlater).1 he)

theorem setOf_ends (hp : ¬ p.isDone) (h : Timeline time rest)
    (hs : since ≤ time) : {u | since ≤ u ∧ Ends p ((time, signal) :: rest) u} =
      {u | time ≤ u ∧ Ends p ((time, signal) :: rest) u} :=
  Set.ext fun _ => and_congr_left fun he =>
    iff_of_true (hs.trans (le_of_ends hp h he)) (le_of_ends hp h he)

theorem some_eq_iff_isLeast {ends : Set Nat} (h : IsLeast ends time) (t : Nat) :
    some time = some t ↔ IsLeast ends t :=
  Option.some_inj.trans ⟨fun ht => ht ▸ h, h.unique⟩

/-! ### Reports that are due -/

theorem lt_of_due (hwait : 0 < wait) (h : Timeline since signals)
    (hdue : Due wait p since signals t) : since < t := by
  obtain ⟨a, b, k, hab, rfl, -, -⟩ := hdue
  have hpass : 0 < (k + 1) * wait :=
    Nat.mul_pos k.succ_pos hwait
  exact (le_and_lt_of_neighbours h hab).1.trans_lt (Nat.lt_add_of_pos_right hpass)

theorem not_due_of_done (hp : p.isDone) (h : Timeline since signals) :
    ¬ Due wait p since signals t := by
  rintro ⟨a, b, k, hab, -, -, hquiet⟩
  obtain ⟨hsince, hlt⟩ := le_and_lt_of_neighbours h hab
  exact hquiet since le_rfl (hsince.trans_lt hlt) ((ends_of_lt (lt_of_timeline h)).2 hp)

theorem not_due_nil : ¬ Due wait p since [] t := by
  rintro ⟨a, b, k, hab, -, -, -⟩
  exact absurd hab.length_le (by simp)

/-- What is due is due before the first signal, or after it if that does not end the watch. -/
theorem due_cons_iff (hp : ¬ p.isDone) (h : Timeline time rest)
    (hs : since ≤ time) : Due wait p since ((time, signal) :: rest) t ↔
      (∃ k, t = since + (k + 1) * wait ∧ t < time) ∨
        ¬ signal.closes ∧ Due wait (signal.picture?.getD p) time rest t := by
  constructor
  · rintro ⟨a, b, k, hab, ht, hlt, hquiet⟩
    rcases List.infix_cons_iff.1 hab with hfirst | hlater
    · obtain ⟨rfl, hb⟩ := List.cons_prefix_cons.1 hfirst
      obtain ⟨rfl, -⟩ := List.cons_prefix_cons.1 hb
      exact .inl ⟨k, ht, hlt⟩
    · have hquiet' : ∀ u, time ≤ u → u < b →
          ¬ ((u = time ∧ signal.closes) ∨ Ends (signal.picture?.getD p) rest u) :=
        fun u hu hub he => hquiet u (hs.trans hu) hub ((ends_cons_of_le hu).2 he)
      obtain ⟨ha, hab'⟩ := le_and_lt_of_neighbours h hlater
      exact .inr ⟨fun hc => hquiet' time le_rfl (ha.trans_lt hab') (.inl ⟨rfl, hc⟩),
        a, b, k, hlater, ht, hlt, fun u hu hub he => hquiet' u hu hub (.inr he)⟩
  · rintro (⟨k, ht, hlt⟩ | ⟨hopen, a, b, k, hab, ht, hlt, hquiet⟩)
    · exact ⟨since, time, k, List.prefix_append [since, time] _ |>.isInfix, ht, hlt,
        fun u _ hu he => not_le.2 hu (le_of_ends hp h he)⟩
    · refine ⟨a, b, k, hab.trans (List.suffix_cons _ _).isInfix, ht, hlt, fun u _ hub he => ?_⟩
      have hu := le_of_ends hp h he
      rcases (ends_cons_of_le hu).1 he with ⟨-, hc⟩ | hlater
      · exact hopen hc
      · exact hquiet u hu hub hlater

/-- If the wait runs out before the first signal, a report is due then, and whatever is due when the
next wait begins there. -/
theorem due_cons_of_expired (hp : ¬ p.isDone) (h : Timeline time rest)
    (hdue : since + wait < time) : Due wait p since ((time, signal) :: rest) t ↔
      t = since + wait ∨ Due wait p (since + wait) ((time, signal) :: rest) t := by
  have hsince : since ≤ time := (Nat.le_add_right _ _).trans hdue.le
  rw [due_cons_iff hp h hsince, due_cons_iff hp h hdue.le, ← or_assoc]
  refine or_congr_left ⟨?_, ?_⟩
  · rintro ⟨k, rfl, hlt⟩
    cases k with
    | zero => exact .inl (by rw [Nat.zero_add, Nat.one_mul])
    | succ k => exact .inr ⟨k, by rw [Nat.succ_mul, Nat.add_comm (_ * _), Nat.add_assoc], hlt⟩
  · rintro (rfl | ⟨k, rfl, hlt⟩)
    · exact ⟨0, by rw [Nat.zero_add, Nat.one_mul], hdue⟩
    · exact ⟨k + 1, by rw [Nat.succ_mul (k + 1), Nat.add_comm (_ * _), Nat.add_assoc], hlt⟩

/-- If the first signal comes before the wait runs out, nothing is due until then. -/
theorem due_cons_of_heard (hp : ¬ p.isDone) (h : Timeline time rest) (hsince : since ≤ time)
    (hearly : time ≤ since + wait) :
    Due wait p since ((time, signal) :: rest) t ↔
      ¬ signal.closes ∧ Due wait (signal.picture?.getD p) time rest t := by
  refine (due_cons_iff hp h hsince).trans (or_iff_right ?_)
  rintro ⟨k, rfl, hlt⟩
  have hpass : wait ≤ (k + 1) * wait := Nat.le_mul_of_pos_left _ k.succ_pos
  omega

/-! ### One turn of the loop -/

theorem accounts_of_done (hp : p.isDone) (h : Timeline since signals) :
    Accounts timeout n p since signals ⟨[], n, some since⟩ where
  ended := some_eq_iff_isLeast
    ⟨⟨le_rfl, (ends_of_lt (lt_of_timeline h)).2 hp⟩, fun _ hu => hu.1⟩
  reports _ _ := iff_of_false List.not_mem_nil fun hq => not_due_of_done hp h hq.1
  ordered := .nil
  counted := rfl

theorem accounts_nil (hp : ¬ p.isDone) : Accounts timeout n p since [] ⟨[], n, none⟩ where
  ended _ := iff_of_false nofun fun ht =>
    hp ((ends_of_lt (List.forall_mem_nil _)).1 ht.1.2)
  reports _ _ := iff_of_false List.not_mem_nil fun hq => not_due_nil hq.1
  ordered := .nil
  counted := rfl

/-- The wait runs out before the first signal, and the watch goes on from there. -/
theorem accounts_of_expired {w : Watch} (hp : ¬ p.isDone)
    (h : Timeline time rest) (hspan : 0 < Wait.span timeout)
    (hdue : since + Wait.span timeout < time)
    (hw : Accounts timeout (n + 1) p (since + Wait.span timeout) ((time, signal) :: rest) w) :
    Accounts timeout n p since ((time, signal) :: rest)
      { w with reports := (since + Wait.span timeout, p) :: w.reports } := by
  have hsince : since ≤ time := (Nat.le_add_right _ _).trans hdue.le
  have hafter : Timeline (since + Wait.span timeout) ((time, signal) :: rest) :=
    timeline_cons hdue h
  have hearly : pictureAt p ((time, signal) :: rest) (since + Wait.span timeout) = p :=
    pictureAt_of_lt (lt_of_timeline hafter)
  constructor
  case ended =>
    intro t
    rw [setOf_ends hp h hsince, ← setOf_ends hp h hdue.le]
    exact hw.ended t
  case reports =>
    intro t q
    rw [List.mem_cons, Prod.mk.injEq, hw.reports, due_cons_of_expired hp h hdue, or_and_right]
    refine or_congr_left (and_congr_right fun ht => ?_)
    rw [ht, hearly]
  case ordered =>
    refine List.pairwise_cons.2 ⟨fun t ht => ?_, hw.ordered⟩
    obtain ⟨⟨t, q⟩, hr, rfl⟩ := List.mem_map.1 ht
    exact lt_of_due hspan hafter ((hw.reports t q).1 hr).1
  case counted =>
    rw [hw.counted, List.length_cons]
    omega

theorem accounts_of_heard {w : Watch} {q : Progress} (hp : ¬ p.isDone) (h : Timeline time rest)
    (hspan : 0 < Wait.span timeout) (hsince : since ≤ time)
    (hearly : time ≤ since + Wait.span timeout) (hw : Accounts timeout n q time rest w) :
    Accounts timeout n p since ((time, .progress q) :: rest) w := by
  constructor
  case ended =>
    intro t
    have hends : {u | time ≤ u ∧ Ends p ((time, .progress q) :: rest) u} =
        {u | time ≤ u ∧ Ends q rest u} :=
      Set.ext fun u => and_congr_right fun hu =>
        (ends_cons_of_le hu).trans (or_iff_right fun hc => nomatch hc.2)
    rw [setOf_ends hp h hsince, hends]
    exact hw.ended t
  case reports =>
    intro t q'
    have hdue : Due (Wait.span timeout) p since ((time, .progress q) :: rest) t ↔
        Due (Wait.span timeout) q time rest t :=
      (due_cons_of_heard hp h hsince hearly).trans (and_iff_right Bool.false_ne_true)
    rw [hw.reports, hdue]
    refine and_congr_right fun ht => ?_
    rw [pictureAt_cons_of_le (lt_of_due hspan h ht).le]
    rfl
  case ordered => exact hw.ordered
  case counted => exact hw.counted

theorem accounts_of_closed (hp : ¬ p.isDone) (h : Timeline time rest) (hsince : since ≤ time)
    (hearly : time ≤ since + Wait.span timeout) (hc : signal.closes) :
    Accounts timeout n p since ((time, signal) :: rest) ⟨[], n, some time⟩ where
  ended := by
    rw [setOf_ends hp h hsince]
    exact some_eq_iff_isLeast
      ⟨⟨le_rfl, (ends_cons_of_le le_rfl).2 (.inl ⟨rfl, hc⟩)⟩, fun _ hu => hu.1⟩
  reports _ _ := iff_of_false List.not_mem_nil fun hq =>
    ((due_cons_of_heard hp h hsince hearly).1 hq.1).1 hc
  ordered := .nil
  counted := rfl

/-! ### Every watch -/

theorem replaces_eq_false (h : since < time) : replaces since (time, signal) = false := by
  cases signal with
  | progress => exact beq_false_of_ne h.ne'
  | progressClosed | shutdown => rfl

/-- A watch does not end before the first signal unless the progress is done, for that signal comes
too late to replace it. -/
theorem not_done_of_continues (h : since < time)
    (hgo : ¬ (p.isDone && !replaces since (time, signal)) = true) : ¬ p.isDone := by
  rwa [replaces_eq_false h, Bool.not_false, Bool.and_true] at hgo

theorem accounts_watchFrom (htimeout : 0 < timeout) (h : Timeline since signals) :
    Accounts timeout n p since signals (watchFrom timeout n p since signals) := by
  have hspan : 0 < Wait.span timeout := Nat.lt_min.2 ⟨htimeout, by decide⟩
  -- One case for each way that a turn can go; where the wait runs out, the signals stay the same.
  fun_induction watchFrom timeout n p since signals with
  | case1 n p since =>
    by_cases hp : p.isDone
    · rw [if_pos hp]
      exact accounts_of_done hp h
    · rw [if_neg hp]
      exact accounts_nil hp
  | case2 n p since time signal rest hdone =>
    exact accounts_of_done (Bool.and_eq_true_iff.1 hdone).1 h
  | case3 n p since time signal rest due hgo hdue later ih =>
    obtain ⟨hfirst, hrest⟩ := List.pairwise_cons.1 h
    have hp := not_done_of_continues (hfirst time List.mem_cons_self) hgo
    have hafter : Timeline due ((time, signal) :: rest) := timeline_cons hdue.2 hrest
    exact accounts_of_expired hp hrest hspan hdue.2 (ih hafter)
  | case4 n p since time rest due hearly q hgo ih =>
    obtain ⟨hfirst, hrest⟩ := List.pairwise_cons.1 h
    have hlt : since < time := hfirst time List.mem_cons_self
    exact accounts_of_heard (not_done_of_continues hlt hgo) hrest hspan hlt.le (by omega)
      (ih hrest)
  | case5 n p since time rest due hearly hgo | case6 n p since time rest due hearly hgo =>
    obtain ⟨hfirst, hrest⟩ := List.pairwise_cons.1 h
    have hlt : since < time := hfirst time List.mem_cons_self
    exact accounts_of_closed (not_done_of_continues hlt hgo) hrest hlt.le (by omega) rfl

end Timeline

/-! ### The journal of a watch -/

/-- An entry describes a picture: it is an error exactly if the run is blocked, it says how far the
run has come, and it names every host that holds the run up. -/
structure Describes (e : Entry) (p : Progress) : Prop where
  error_iff : e.level = .error ↔ p.isBlocked
  warn_iff : e.level = .warn ↔ ¬ p.isBlocked
  completed : ("completed", toString p.completed) ∈ e.fields
  known : ("known", toString p.known) ∈ e.fields
  stalled : ("stalled", stalledText p) ∈ e.fields
  waiting : p.unserviced = [] ∨
    ("waiting_for_offer", Text.bracketed (p.unserviced.map Text.quote)) ∈ e.fields
  inFlight : p.pending = [] ∨
    ("in_flight", Text.bracketed (p.pending.map Text.quote)) ∈ e.fields

/-- The entry for a blocked run leaves out the hosts that wait and those under way, for there are
none. -/
theorem describes_entry (timeout : Nat) (p : Progress) : Describes (entry timeout p) p := by
  by_cases hblocked : p.isBlocked
  · have hnone := hblocked
    simp only [Progress.isBlocked, Bool.and_eq_true, List.isEmpty_iff] at hnone
    obtain ⟨⟨⟨-, hpending⟩, hunserviced⟩, -⟩ := hnone
    rw [entry, if_pos hblocked]
    constructor <;> simp [Entry.error, hblocked, hpending, hunserviced]
  · rw [entry, if_neg hblocked]
    constructor <;> simp [Entry.warn, hblocked]

/-- A watch ends at the first instant at which the progress is done or a signal closes it, and not
at all if there is none. Its journal has an entry at each instant at which a report is due, and at
no other, in order of time. Each entry describes the picture that is current then, and the entries
are counted. -/
theorem reports_while_idle (timeout : Nat) (initial : Progress) (signals : List (Nat × Signal))
    (htimeout : 0 < timeout) (h : Timeline 0 signals) :
    let w := watch timeout initial signals
    (∀ t, w.ended = some t ↔ IsLeast {u | Ends initial signals u} t) ∧
    (∀ t, t ∈ (w.entries timeout).map (·.1) ↔
      Due (Wait.span timeout) initial 0 signals t) ∧
    ((w.entries timeout).map (·.1)).Pairwise (· < ·) ∧
    (∀ e ∈ w.entries timeout, Describes e.2 (pictureAt initial signals e.1)) ∧
    w.warnings = (w.entries timeout).length := by
  intro w
  have hw : Accounts timeout 0 initial 0 signals w := accounts_watchFrom htimeout h
  have htimes : (w.entries timeout).map (·.1) = w.reports.map (·.1) := List.map_map
  refine ⟨fun t => ?_, fun t => ?_, htimes ▸ hw.ordered, fun e he => ?_, ?_⟩
  · simpa only [Nat.zero_le, true_and] using hw.ended t
  · rw [htimes, List.mem_map]
    constructor
    · rintro ⟨⟨t, q⟩, hr, rfl⟩
      exact ((hw.reports t q).1 hr).1
    · exact fun ht => ⟨(t, pictureAt initial signals t), (hw.reports _ _).2 ⟨ht, rfl⟩, rfl⟩
  · obtain ⟨⟨t, q⟩, hr, rfl⟩ := List.mem_map.1 he
    rw [← ((hw.reports t q).1 hr).2]
    exact describes_entry timeout q
  · rw [hw.counted, Nat.zero_add, Watch.entries, List.length_map]

/-- A picture that comes in the middle of a wait starts it again, and may have several reports. -/
theorem reports_while_idle_two_pictures :
    let blocked : Progress := ⟨.draining, 1, 1, 0, [], [], [("h1", .lost)]⟩
    let signals : List (Nat × Signal) := [(3, .progress blocked), (8, .shutdown)]
    let entries := (watch 2 .initial signals).entries 2
    0 < 2 ∧ Timeline 0 signals ∧ IsLeast {u | Ends .initial signals u} 8 ∧
      entries.map (fun e => (e.1, e.2.level)) = [(2, .warn), (5, .error), (7, .error)] ∧
      (∀ t, t ∈ [2, 5, 7] ↔ Due (Wait.span 2) .initial 0 signals t) ∧
      ∀ e ∈ entries, Describes e.2 (pictureAt .initial signals e.1) := by
  intro blocked signals entries
  have hordered : Timeline 0 signals := by decide
  have hwatch : watch 2 .initial signals =
      ⟨[(2, .initial), (5, blocked), (7, blocked)], 3, some 8⟩ := by
    simp [signals, blocked, watch, watchFrom, replaces, Progress.isDone, Progress.initial,
      Wait.span, Wait.longest]
  have htimes : entries.map (·.1) = [2, 5, 7] := by
    simp only [entries, hwatch]
    rfl
  obtain ⟨hended, hdue, -, hdescribes, -⟩ :=
    reports_while_idle 2 .initial signals (by decide) hordered
  refine ⟨by decide, hordered, (hended 8).1 (by rw [hwatch]), ?_, fun t => htimes ▸ hdue t,
    hdescribes⟩
  simp only [entries, hwatch]
  rfl

/-- A report does not wait for a timeout of more than thirty years to pass. -/
theorem reported_before_long_timeout :
    let signals : List (Nat × Signal) := [(1800000000000, .shutdown)]
    let times := ((watch 1000000000000 .initial signals).entries 1000000000000).map (·.1)
    0 < 1000000000000 ∧ Timeline 0 signals ∧ times = [946080000000] ∧
      ¬ ∀ t, t ∈ times ↔ Due 1000000000000 .initial 0 signals t := by
  intro signals times
  have hordered : Timeline 0 signals := by decide
  have htimes : times = [946080000000] := by
    simp [times, signals, watch, watchFrom, replaces, Progress.isDone, Progress.initial,
      Wait.span, Wait.longest, Watch.entries]
  refine ⟨by decide, hordered, htimes, fun hall => ?_⟩
  have hmem : 946080000000 ∈ times := htimes ▸ List.mem_singleton_self _
  obtain ⟨a, b, k, -, ht, -⟩ := (hall _).1 hmem
  omega

end Watchdog

end Rollout
