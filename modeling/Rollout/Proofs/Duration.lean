import Mathlib.Data.List.Basic
import Rollout.Config.Basic
import Rollout.Proofs.Text

/-!
How durations are read.

The end of a text tells its unit: `ms` before `s` before `m`, and a text without a unit counts
seconds. What is left has to be a number, and the span has to fit in a count of seconds; then
nothing of it is lost. How the number is written and how many blank characters stand around it does
not matter, nor which unit the same span is written in.
-/
namespace Rollout

namespace Text

variable {suffix s r : List Char}

theorem beforeSuffix?_eq_some_iff : beforeSuffix? suffix s = some r ↔ s = r ++ suffix := by
  rw [beforeSuffix?, Option.map_eq_some_iff]
  constructor
  · rintro ⟨front, hfront, rfl⟩
    have hs := congrArg List.reverse (eq_append_of_afterPrefix? hfront)
    rwa [List.reverse_append, List.reverse_reverse, List.reverse_reverse] at hs
  · rintro rfl
    exact ⟨r.reverse, by rw [List.reverse_append, afterPrefix?_append], List.reverse_reverse r⟩

theorem beforeSuffix?_eq_none_iff : beforeSuffix? suffix s = none ↔ ¬ suffix <:+ s := by
  constructor
  · rintro hnone ⟨r, rfl⟩
    rw [beforeSuffix?_eq_some_iff.2 rfl] at hnone
    cases hnone
  · intro h
    exact Option.eq_none_iff_forall_ne_some.2 fun r hr =>
      h ⟨r, (beforeSuffix?_eq_some_iff.1 hr).symm⟩

/-- A text is trimmed if what it begins with and what it ends with have no blank characters. -/
theorem trimmed_append {front between back : List Char} (hfront : front ≠ []) (hback : back ≠ [])
    (hf : ∀ c ∈ front, isBlank c = false) (hb : ∀ c ∈ back, isBlank c = false) :
    Trimmed (front ++ between ++ back) := by
  constructor
  · intro c hc
    rw [List.append_assoc, List.head?_append_of_ne_nil front hfront] at hc
    exact hf c (List.mem_of_mem_head? hc)
  · intro c hc
    rw [List.getLast?_append_of_ne_nil _ hback] at hc
    exact hb c (List.mem_of_getLast? hc)

/-- Blank characters around a trimmed text are all that trimming takes off. -/
theorem trim_around {before t after : List Char} (ht : Trimmed t)
    (hbefore : ∀ c ∈ before, isBlank c = true) (hafter : ∀ c ∈ after, isBlank c = true) :
    trim (before ++ t ++ after) = t :=
  trim_eq_iff.2 ⟨ht, before, after, hbefore, hafter, rfl⟩

end Text

namespace Duration

/-- A unit in milliseconds. -/
def Unit.millis : Unit → Nat
  | .millisecond => 1
  | .second => 1000
  | .minute => 60000

/-- A text without its unit, and the unit: the first of `ms`, `s` and `m` that the text ends with,
and seconds if it ends with none of them. -/
inductive Splits (s : List Char) : List Char → Unit → Prop where
  | milliseconds {number : List Char} (h : s = number ++ ['m', 's']) :
      Splits s number .millisecond
  | seconds {number : List Char} (hms : ¬ ['m', 's'] <:+ s) (h : s = number ++ ['s']) :
      Splits s number .second
  | minutes {number : List Char} (hms : ¬ ['m', 's'] <:+ s) (hs : ¬ ['s'] <:+ s)
      (h : s = number ++ ['m']) : Splits s number .minute
  | bare (hms : ¬ ['m', 's'] <:+ s) (hs : ¬ ['s'] <:+ s) (hm : ¬ ['m'] <:+ s) : Splits s s .second

/-- One or more digits of a number, with or without a plus sign. -/
def Numeral (s : List Char) (n : Nat) : Prop :=
  ∃ sign digits, s = sign ++ digits ∧ (sign = [] ∨ sign = ['+']) ∧ digits ≠ [] ∧
    (∀ c ∈ digits, c.isDigit = true) ∧ n = Nat.ofDigitChars 10 digits 0

/-- Without the blank characters around it, then without its unit and the blank characters around
the rest, the text is a number that fits in a word, and so do the seconds of minutes. -/
def Counts (s : List Char) (n : Nat) (unit : Unit) : Prop :=
  ∃ number, Splits (Text.trim s) number unit ∧ Numeral (Text.trim number) n ∧
    n < Decimal.wordLimit ∧ (unit = .minute → 60 * n < Decimal.wordLimit)

/-- A number and its unit, which seconds need not have, with any blank characters before, between
and after the two. -/
def Spells (s : List Char) (n : Nat) (unit : Unit) : Prop :=
  ∃ before number between suffix after : List Char,
    s = before ++ (number ++ between ++ suffix) ++ after ∧ Numeral number n ∧
    (suffix = unit.suffix ∨ suffix = [] ∧ unit = .second) ∧
    ∀ blanks ∈ [before, between, after], ∀ c ∈ blanks, Text.isBlank c = true

variable {s number : List Char} {unit : Unit} {n : Nat} {d : Duration}

/-! ### Numbers and units -/

theorem splitUnit_eq_iff : splitUnit s = (number, unit) ↔ Splits s number unit := by
  constructor
  · intro h
    simp only [splitUnit] at h
    split at h
    · next hms =>
      cases h
      exact .milliseconds (Text.beforeSuffix?_eq_some_iff.1 hms)
    · next hms =>
      have hms := Text.beforeSuffix?_eq_none_iff.1 hms
      split at h
      · next hs =>
        cases h
        exact .seconds hms (Text.beforeSuffix?_eq_some_iff.1 hs)
      · next hs =>
        have hs := Text.beforeSuffix?_eq_none_iff.1 hs
        split at h
        · next hm =>
          cases h
          exact .minutes hms hs (Text.beforeSuffix?_eq_some_iff.1 hm)
        · next hm =>
          cases h
          exact .bare hms hs (Text.beforeSuffix?_eq_none_iff.1 hm)
  · intro h
    cases h with
    | milliseconds h => simp only [splitUnit, Unit.suffix, Text.beforeSuffix?_eq_some_iff.2 h]
    | seconds hms h =>
      simp only [splitUnit, Unit.suffix, Text.beforeSuffix?_eq_none_iff.2 hms,
        Text.beforeSuffix?_eq_some_iff.2 h]
    | minutes hms hs h =>
      simp only [splitUnit, Unit.suffix, Text.beforeSuffix?_eq_none_iff.2 hms,
        Text.beforeSuffix?_eq_none_iff.2 hs, Text.beforeSuffix?_eq_some_iff.2 h]
    | bare hms hs hm =>
      simp only [splitUnit, Unit.suffix, Text.beforeSuffix?_eq_none_iff.2 hms,
        Text.beforeSuffix?_eq_none_iff.2 hs, Text.beforeSuffix?_eq_none_iff.2 hm]

theorem word?_eq_some_iff_numeral :
    Decimal.word? s = some n ↔ Numeral s n ∧ n < Decimal.wordLimit := by
  simp only [Decimal.word?_eq_some_iff, Numeral, ← exists_and_right, and_assoc]

theorem span?_eq_some_iff : unit.span? n = some d ↔
    (unit = .minute → 60 * n < Decimal.wordLimit) ∧ d.millis = n * unit.millis := by
  obtain ⟨millis⟩ := d
  cases unit with
  | millisecond =>
    simp only [Unit.span?, ofMillis, Unit.millis, Option.some.injEq, Duration.mk.injEq,
      reduceCtorEq, false_implies, true_and]
    omega
  | second =>
    simp only [Unit.span?, ofSeconds, Unit.millis, Option.some.injEq, Duration.mk.injEq,
      reduceCtorEq, false_implies, true_and]
    omega
  | minute =>
    simp only [Unit.span?, ofMinutes?, ofSeconds, Unit.millis, Option.ite_none_right_eq_some,
      Option.some.injEq, Duration.mk.injEq, true_implies]
    omega

theorem ofChars?_eq_bind (s : List Char) :
    ofChars? s = (Decimal.word? (Text.trim (splitUnit (Text.trim s)).1)).bind
      (splitUnit (Text.trim s)).2.span? := rfl

/-- A text is read as a duration exactly if it counts a unit. -/
theorem ofChars?_eq_some_iff :
    ofChars? s = some d ↔ ∃ n unit, Counts s n unit ∧ d.millis = n * unit.millis := by
  rw [ofChars?_eq_bind, Option.bind_eq_some_iff]
  constructor
  · rintro ⟨n, hword, hspan⟩
    obtain ⟨hnumber, hlt⟩ := word?_eq_some_iff_numeral.1 hword
    obtain ⟨hminutes, hmillis⟩ := span?_eq_some_iff.1 hspan
    exact ⟨n, _, ⟨_, splitUnit_eq_iff.1 rfl, hnumber, hlt, hminutes⟩, hmillis⟩
  · rintro ⟨n, unit, ⟨number, hsplits, hnumber, hlt, hminutes⟩, hmillis⟩
    rw [splitUnit_eq_iff.2 hsplits]
    exact ⟨n, word?_eq_some_iff_numeral.2 ⟨hnumber, hlt⟩, span?_eq_some_iff.2 ⟨hminutes, hmillis⟩⟩

/-! ### Spellings -/

/-- The characters of a number are neither blank nor letters of a unit. -/
theorem Numeral.plain (h : Numeral s n) : ∀ c ∈ s, Text.isBlank c = false ∧ c ≠ 'm' ∧ c ≠ 's' := by
  obtain ⟨sign, digits, rfl, hsign, -, hdigits, -⟩ := h
  intro c hc
  rcases List.mem_append.1 hc with hc | hc
  · rcases hsign with rfl | rfl
    · cases hc
    · rw [List.mem_singleton.1 hc]
      decide
  · refine ⟨Text.isBlank_of_isDigit (hdigits c hc), ?_, ?_⟩
    all_goals
      rintro rfl
      exact absurd (hdigits _ hc) (by decide)

theorem Numeral.ne_nil (h : Numeral s n) : s ≠ [] := by
  obtain ⟨sign, digits, rfl, -, hne, -⟩ := h
  exact List.append_ne_nil_of_right_ne_nil sign hne

theorem word?_of_numeral (h : Numeral s n) :
    Decimal.word? s = (some n).filter (· < Decimal.wordLimit) := by
  obtain ⟨sign, digits, rfl, hsign, hne, hdigits, hn⟩ := h
  have hnatural : Decimal.natural? digits = some n :=
    Decimal.natural?_eq_some_iff.2 ⟨hne, hdigits, hn⟩
  rcases hsign with rfl | rfl
  · have hhead : ∀ c ∈ digits.head?, c ≠ '+' := by
      rintro c hc rfl
      exact absurd (hdigits '+' (List.mem_of_mem_head? hc)) (by decide)
    rw [List.nil_append, Decimal.word?_of_head hhead, hnatural]
  · rw [List.singleton_append, Decimal.word?_plus, hnatural]

theorem getLast?_of_suffix {l t : List Char} {c : Char} (h : l ++ [c] <:+ t) :
    t.getLast? = some c := by
  obtain ⟨front, rfl⟩ := h
  rw [← List.append_assoc, List.getLast?_concat]

/-- A unit is found behind every text that does not end in the letter that `ms` has before `s`. -/
theorem splits_append {t : List Char} (h : t.getLast? ≠ some 'm') (unit : Unit) :
    Splits (t ++ unit.suffix) t unit := by
  have hlast (c d : Char) (l : List Char) (hne : c ≠ d) : ¬ l ++ [c] <:+ t ++ [d] := by
    intro hs
    have hc := getLast?_of_suffix hs
    rw [List.getLast?_concat] at hc
    exact hne (Option.some.inj hc).symm
  cases unit with
  | millisecond => exact .milliseconds rfl
  | second =>
    refine .seconds ?_ rfl
    rintro ⟨front, hfront⟩
    have ht : (front ++ ['m']) ++ ['s'] = t ++ ['s'] := (List.append_assoc ..).trans hfront
    exact h (List.append_cancel_right ht ▸ List.getLast?_concat)
  | minute => exact .minutes (hlast 's' 'm' ['m'] (by decide)) (hlast 's' 'm' [] (by decide)) rfl

theorem isBlank_of_mem_suffix {c : Char} (h : c ∈ unit.suffix) : Text.isBlank c = false := by
  cases unit with
  | millisecond =>
    rcases List.mem_pair.1 h with rfl | rfl
    all_goals decide
  | second | minute =>
    rw [List.mem_singleton.1 h]
    decide

theorem suffix_ne_nil (unit : Unit) : unit.suffix ≠ [] := by
  cases unit <;> exact List.cons_ne_nil _ _

/-- Spellings of the same number in the same unit are read alike. -/
theorem ofChars?_of_spells (h : Spells s n unit) :
    ofChars? s = ((some n).filter (· < Decimal.wordLimit)).bind unit.span? := by
  obtain ⟨before, number, between, suffix, after, rfl, hnumber, hsuffix, hblank⟩ := h
  obtain ⟨hbefore, hbetween, hafter⟩ : (∀ c ∈ before, Text.isBlank c = true) ∧
      (∀ c ∈ between, Text.isBlank c = true) ∧ ∀ c ∈ after, Text.isBlank c = true := by
    simpa using hblank
  have hvisible : ∀ c ∈ number, Text.isBlank c = false := fun c hc => (hnumber.plain c hc).1
  have hnumberTrimmed : Text.Trimmed number := Text.trimmed_of_forall hvisible
  -- whatever the unit, what is left behind it is the number
  suffices hread : ∃ rest, Splits (Text.trim (before ++ (number ++ between ++ suffix) ++ after))
      rest unit ∧ Text.trim rest = number by
    obtain ⟨rest, hsplits, hrest⟩ := hread
    rw [ofChars?_eq_bind, splitUnit_eq_iff.2 hsplits, hrest, word?_of_numeral hnumber]
  rcases hsuffix with rfl | ⟨rfl, rfl⟩
  · have hall : Text.Trimmed (number ++ between ++ unit.suffix) :=
      Text.trimmed_append hnumber.ne_nil (suffix_ne_nil unit) hvisible
        fun c hc => isBlank_of_mem_suffix hc
    rw [Text.trim_around hall hbefore hafter]
    refine ⟨number ++ between, splits_append (fun hlast => ?_) unit,
      Text.trim_around hnumberTrimmed (List.forall_mem_nil _) hbetween⟩
    rcases List.mem_append.1 (List.mem_of_getLast? hlast) with hm | hm
    · exact (hnumber.plain _ hm).2.1 rfl
    · exact absurd (hbetween _ hm) (by decide)
  · have hends (l : List Char) (c : Char) (hc : c = 'm' ∨ c = 's') : ¬ l ++ [c] <:+ number := by
      intro hs
      have hplain := hnumber.plain c (List.mem_of_getLast? (getLast?_of_suffix hs))
      exact hc.elim hplain.2.1 hplain.2.2
    rw [List.append_nil, ← List.append_assoc, List.append_assoc,
      Text.trim_around hnumberTrimmed hbefore (List.forall_mem_append.2 ⟨hbetween, hafter⟩)]
    exact ⟨number,
      .bare (hends ['m'] 's' (.inr rfl)) (hends [] 's' (.inr rfl)) (hends [] 'm' (.inl rfl)),
      Text.trim_eq_self hvisible⟩

theorem ofChars?_of_fits (h : Spells s n unit) (hn : n < Decimal.wordLimit)
    (hd : unit.span? n = some d) : ofChars? s = some d := by
  rw [ofChars?_of_spells h, Option.filter_some, if_pos (decide_eq_true hn)]
  exact hd

/-! ### Settings -/

theorem ofSetting_eq_ok_iff {text : String} :
    ofSetting text = .ok d ↔ ofChars? text.toList = some d := by
  unfold ofSetting parse?
  cases ofChars? text.toList <;> simp

theorem ofSetting_eq_error_iff {text : String} {e : ConfigError} :
    ofSetting text = .error e ↔ e = .duration text ∧ ofChars? text.toList = none := by
  unfold ofSetting parse?
  cases ofChars? text.toList <;> simp [eq_comm]

/-- A span in whole seconds and the nanoseconds beyond them, of which none are lost. -/
theorem seconds_and_nanos (d : Duration) : d.nanos < 1000000000 ∧
    d.seconds * 1000000000 + d.nanos = d.millis * 1000000 := by
  simp only [seconds, nanos]
  omega

theorem Counts.seconds_lt (h : Counts s n unit) (hd : d.millis = n * unit.millis) :
    d.seconds < Decimal.wordLimit := by
  obtain ⟨number, -, -, hlt, hminutes⟩ := h
  rw [seconds, hd]
  cases unit with
  | millisecond => simp only [Unit.millis]; omega
  | second => simp only [Unit.millis]; omega
  | minute =>
    have hseconds := hminutes rfl
    simp only [Unit.millis]
    omega

/-- A setting is read as a duration exactly if it counts a unit, its span is then that many units,
which fit in a count of seconds with nothing lost, and any other setting is given back by the error.
All spellings of one number in one unit are read alike, and so are the spellings of minutes as
seconds, and of seconds as milliseconds, where both fit. -/
theorem reads_count_of_unit (text : String) :
    (∀ d, ofSetting text = .ok d ↔
      ∃ n unit, Counts text.toList n unit ∧ d.millis = n * unit.millis) ∧
    (∀ e, ofSetting text = .error e ↔
      e = .duration text ∧ ∀ n unit, ¬ Counts text.toList n unit) ∧
    (∀ n unit, Counts text.toList n unit → ∃ d, ofSetting text = .ok d ∧
      d.seconds < Decimal.wordLimit ∧ d.nanos < 1000000000 ∧
      d.seconds * 1000000000 + d.nanos = n * unit.millis * 1000000) ∧
    ∀ other : String,
      (∀ n unit, Spells text.toList n unit → Spells other.toList n unit →
        parse? text = parse? other) ∧
      (∀ n, 60 * n < Decimal.wordLimit →
        Spells text.toList n .minute → Spells other.toList (60 * n) .second →
        ∃ d, ofSetting text = .ok d ∧ ofSetting other = .ok d) ∧
      (∀ n, 1000 * n < Decimal.wordLimit →
        Spells text.toList n .second → Spells other.toList (1000 * n) .millisecond →
        ∃ d, ofSetting text = .ok d ∧ ofSetting other = .ok d) := by
  have hok : ∀ d, ofSetting text = .ok d ↔
      ∃ n unit, Counts text.toList n unit ∧ d.millis = n * unit.millis :=
    fun d => ofSetting_eq_ok_iff.trans ofChars?_eq_some_iff
  refine ⟨hok, fun e => ?_, fun n unit h => ?_, fun other => ⟨fun n unit h h' => ?_, ?_, ?_⟩⟩
  · rw [ofSetting_eq_error_iff, Option.eq_none_iff_forall_ne_some]
    refine and_congr_right fun _ => ⟨fun hnone n unit h => ?_, fun hnone d hd => ?_⟩
    · exact hnone ⟨n * unit.millis⟩ (ofChars?_eq_some_iff.2 ⟨n, unit, h, rfl⟩)
    · obtain ⟨n, unit, h, -⟩ := ofChars?_eq_some_iff.1 hd
      exact hnone n unit h
  · let d : Duration := ⟨n * unit.millis⟩
    obtain ⟨hnanos, hsum⟩ := seconds_and_nanos d
    exact ⟨d, (hok d).2 ⟨n, unit, h, rfl⟩, h.seconds_lt rfl, hnanos, hsum⟩
  · rw [parse?, parse?, ofChars?_of_spells h, ofChars?_of_spells h']
  · intro n hfit h h'
    have hn : n < Decimal.wordLimit := lt_of_le_of_lt (Nat.le_mul_of_pos_left n (by decide)) hfit
    have hspan : Unit.minute.span? n = some (ofSeconds (60 * n)) := if_pos hfit
    exact ⟨ofSeconds (60 * n), ofSetting_eq_ok_iff.2 (ofChars?_of_fits h hn hspan),
      ofSetting_eq_ok_iff.2 (ofChars?_of_fits h' hfit rfl)⟩
  · intro n hfit h h'
    have hn : n < Decimal.wordLimit := lt_of_le_of_lt (Nat.le_mul_of_pos_left n (by decide)) hfit
    exact ⟨ofMillis (1000 * n), ofSetting_eq_ok_iff.2 (ofChars?_of_fits h hn rfl),
      ofSetting_eq_ok_iff.2 (ofChars?_of_fits h' hfit rfl)⟩

/-- Two minutes, with blanks, a plus sign and a leading zero, are 120 seconds. -/
theorem reads_count_of_unit_two_minutes :
    Spells "\t+02 m ".toList 2 .minute ∧ Spells "120s".toList (60 * 2) .second ∧
      ∃ d, ofSetting "\t+02 m " = .ok d ∧ ofSetting "120s" = .ok d := by
  have htwo : Numeral ['+', '0', '2'] 2 :=
    ⟨['+'], ['0', '2'], rfl, .inr rfl, by decide, List.all_eq_true.1 (by decide), by decide⟩
  have htab : Text.isBlank '\t' = true := rfl
  have hspace : Text.isBlank ' ' = true := rfl
  have hminutes : Spells "\t+02 m ".toList 2 .minute :=
    ⟨['\t'], ['+', '0', '2'], [' '], ['m'], [' '], rfl, htwo, .inl rfl, by simp [htab, hspace]⟩
  have hnumber : Numeral ['1', '2', '0'] (60 * 2) :=
    ⟨[], ['1', '2', '0'], rfl, .inl rfl, by decide, List.all_eq_true.1 (by decide), by decide⟩
  have hseconds : Spells "120s".toList (60 * 2) .second :=
    ⟨[], ['1', '2', '0'], [], ['s'], [], rfl, hnumber, .inl rfl, by simp⟩
  obtain ⟨-, -, -, hother⟩ := reads_count_of_unit "\t+02 m "
  exact ⟨hminutes, hseconds, (hother "120s").2.1 2 (by decide) hminutes hseconds⟩

end Duration

end Rollout
