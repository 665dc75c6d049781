import Rollout.Proofs.Readiness

/-!
Options above a file.

An option takes the place of what the file says, so what stands there in the file is not in the
configuration any more. But the file is checked as it is before that, and a file that does not pass
is refused with what is wrong in it, even if an option would replace just that. So the values that
options replace are without influence as long as the check of the file says the same of them.
-/
namespace Rollout

namespace TextSetting

/-- What the check of a configuration asks of a setting. -/
def Admits : TextSetting → String → Prop
  | .interval, s => ∃ d, Duration.ofSetting s = .ok d
  | .stallTimeout, s => ∃ d, Duration.ofSetting s = .ok d ∧ 0 < d.millis
  | .script, s => ∃ char ∈ s.toList, Text.isBlank char = false
  | .name, _ | .user, _ | .interpreter, _ => True

/-- What a document says of a setting would pass the check. -/
def AdmittedIn (t : TextSetting) (es : Toml.Entries) : Prop :=
  ∃ s, t.read? es = some s ∧ t.Admits s

theorem AdmittedIn.admits {t : TextSetting} {origin : Toml.Origin} {es : Toml.Entries} {c : Config}
    (h : t.AdmittedIn es) (hc : Config.ofToml? (.table origin es) = some c) :
    t.Admits (t.of c) := by
  obtain ⟨s, hs, hadmits⟩ := h
  cases hs.symm.trans ((Config.ofToml?_eq_some_iff.1 hc).1 t)
  exact hadmits

end TextSetting

/-- Documents that have the same at the place of each setting, but for the settings that are given
as options. -/
structure Toml.AgreeBelow (given : List (Setting × String)) (es es' : Toml.Entries) : Prop where
  texts : ∀ t : TextSetting, t.given? given = none → t.location.slot? es = t.location.slot? es'
  refusal : OfferSettings.location.slot? es = OfferSettings.location.slot? es'

open Toml

variable {given : List (Setting × String)} {es es' : Entries} {f f' : Config}

namespace Toml.AgreeBelow

theorem symm (h : AgreeBelow given es es') : AgreeBelow given es' es :=
  ⟨fun t ht => (h.texts t ht).symm, h.refusal.symm⟩

theorem read?_eq (h : AgreeBelow given es es') {t : TextSetting} (ht : t.given? given = none) :
    t.read? es = t.read? es' := by
  rw [TextSetting.read?, TextSetting.read?, h.texts t ht]

theorem refusal?_eq (h : AgreeBelow given es es') :
    OfferSettings.refusal? es = OfferSettings.refusal? es' := by
  rw [OfferSettings.refusal?, OfferSettings.refusal?, h.refusal]

end Toml.AgreeBelow

namespace Config

theorem eq_of_settings (htexts : ∀ t : TextSetting, t.of f = t.of f')
    (hrefusal : f.offers.refuseSeconds = f'.offers.refuseSeconds) : f = f' := by
  obtain ⟨⟨_, _⟩, ⟨_, _, _⟩, ⟨_⟩, ⟨_⟩⟩ := f
  obtain ⟨⟨_, _⟩, ⟨_, _, _⟩, ⟨_⟩, ⟨_⟩⟩ := f'
  cases htexts .name
  cases htexts .user
  cases htexts .interval
  cases htexts .script
  cases htexts .interpreter
  cases htexts .stallTimeout
  cases hrefusal
  rfl

/-- A document can be read if each setting in it can. -/
theorem exists_ofToml? (htexts : ∀ t : TextSetting, ∃ s, t.read? es = some s)
    (hrefusal : ∃ x, OfferSettings.refusal? es = some x) :
    ∃ c, ofToml? (.table .header es) = some c := by
  choose text htext using htexts
  obtain ⟨x, hx⟩ := hrefusal
  let c : Config := ⟨⟨text .name, text .user⟩,
    ⟨text .interval, text .script, text .interpreter⟩, ⟨x⟩, ⟨text .stallTimeout⟩⟩
  refine ⟨c, ofToml?_eq_some_iff.2 ⟨fun t => ?_, hx⟩⟩
  rw [htext t]
  cases t <;> rfl

theorem exists_ofToml?_of_agree (h : AgreeBelow given es es')
    (hf : ofToml? (.table .header es) = some f)
    (admitted : ∀ t : TextSetting, t.given? given ≠ none → t.AdmittedIn es') :
    ∃ f', ofToml? (.table .header es') = some f' := by
  obtain ⟨htexts, hrefusal⟩ := ofToml?_eq_some_iff.1 hf
  refine exists_ofToml? (fun t => ?_) ⟨_, h.refusal?_eq ▸ hrefusal⟩
  by_cases ht : t.given? given = none
  · exact ⟨_, h.read?_eq ht ▸ htexts t⟩
  · obtain ⟨s, hs, -⟩ := admitted t ht
    exact ⟨s, hs⟩

theorem of_eq_of_agree (h : AgreeBelow given es es')
    (hf : ofToml? (.table .header es) = some f) (hf' : ofToml? (.table .header es') = some f') :
    (∀ t : TextSetting, t.given? given = none → t.of f = t.of f') ∧
      f.offers.refuseSeconds = f'.offers.refuseSeconds := by
  obtain ⟨htexts, hrefusal⟩ := ofToml?_eq_some_iff.1 hf
  obtain ⟨htexts', hrefusal'⟩ := ofToml?_eq_some_iff.1 hf'
  refine ⟨fun t ht => Option.some.inj ?_, Option.some.inj ?_⟩
  · rw [← htexts, ← htexts', h.read?_eq ht]
  · rw [← hrefusal, ← hrefusal', h.refusal?_eq]

/-- Nothing is left of the settings that options replace. -/
theorem override_eq_override (h : AgreeBelow given es es')
    (hf : ofToml? (.table .header es) = some f) (hf' : ofToml? (.table .header es') = some f') :
    f.override given = f'.override given := by
  obtain ⟨htexts, hrefusal⟩ := of_eq_of_agree h hf hf'
  refine eq_of_settings (fun t => ?_) hrefusal
  rw [of_override, of_override]
  cases ht : t.given? given with
  | none => exact htexts t ht
  | some value => rfl

/-- The check sees of an admitted setting only that it is admitted. -/
theorem validate_congr
    (htexts : ∀ t : TextSetting, t.of f = t.of f' ∨ t.Admits (t.of f) ∧ t.Admits (t.of f'))
    (hrefusal : f.offers.refuseSeconds = f'.offers.refuseSeconds) : f.validate = f'.validate := by
  have hscript : (Text.trim f.launch.script.toList).isEmpty =
      (Text.trim f'.launch.script.toList).isEmpty := by
    rcases htexts .script with heq | ⟨hadmits, hadmits'⟩
    · exact congrArg (fun s : String => (Text.trim s.toList).isEmpty) heq
    · rw [Bool.eq_iff_iff, Text.isEmpty_trim_iff, Text.isEmpty_trim_iff]
      exact iff_of_false (not_not_intro hadmits) (not_not_intro hadmits')
  have hfault {timeout timeout' : Duration} (h : timeout.isZero = timeout'.isZero) :
      f.fault? timeout = f'.fault? timeout' := by
    rw [fault?, fault?, h, hrefusal, hscript]
  -- of the timeout the check needs more than that it can be read: it must not be zero
  have htimeout : (f.stallTimeout.bind fun timeout => (f.fault? timeout).elim (.ok ()) .error) =
      f'.stallTimeout.bind fun timeout => (f'.fault? timeout).elim (.ok ()) .error := by
    rcases htexts .stallTimeout with heq | ⟨⟨d, hd, hpos⟩, d', hd', hpos'⟩
    · have hsame : f.stallTimeout = f'.stallTimeout := congrArg Duration.ofSetting heq
      simp only [hsame, hfault rfl]
    · have hzero : d.isZero = d'.isZero := by
        rw [Bool.eq_iff_iff, Duration.isZero_iff, Duration.isZero_iff]
        exact iff_of_false (not_not_intro hpos) (not_not_intro hpos')
      change f.stallTimeout = .ok d at hd
      change f'.stallTimeout = .ok d' at hd'
      simp only [hd, hd', Except.bind, hfault hzero]
  rw [validate_eq, validate_eq, htimeout]
  rcases htexts .interval with heq | ⟨⟨d, hd⟩, d', hd'⟩
  · have hsame : f.launchInterval = f'.launchInterval := congrArg Duration.ofSetting heq
    rw [hsame]
  · change f.launchInterval = .ok d at hd
    change f'.launchInterval = .ok d' at hd'
    simp only [hd, hd', Except.bind]

end Config

namespace Sample

/-- A file that says the interval only, and what it says. -/
def intervalFile (interval : String) : String → Except FileError (List Char) :=
  fun _ => .ok ("[launch]\ninterval = \"" ++ interval ++ "\"\n").toList

def intervalEntries (interval : String) : Entries :=
  [("launch", .table .header [("interval", .text interval)])]

/-- The interval is given as an option in `Sample.invocation`. -/
theorem agreeBelow_interval (s s' : String) :
    AgreeBelow invocation.given (intervalEntries s) (intervalEntries s') := by
  refine ⟨fun t ht => ?_, rfl⟩
  cases t with
  | interval => cases ht
  | _ => rfl

end Sample

namespace Invocation

variable {i : Invocation} {files files' : String → Except FileError (List Char)}

/-- What the check of the file says, before there are options above it. -/
def verdict (i : Invocation) (readText : String → Except FileError (List Char)) :
    Except ConfigError Unit :=
  (i.base readText).map fun _ => ()

theorem verdict_eq_ok_iff : i.verdict files = .ok () ↔ ∃ f, i.base files = .ok f := by
  rw [verdict]
  cases i.base files with
  | error e => exact iff_of_false nofun nofun
  | ok f => exact iff_of_true rfl ⟨f, rfl⟩

theorem verdict_eq_error_iff {e : ConfigError} :
    i.verdict files = .error e ↔ i.base files = .error e := by
  rw [verdict]
  cases i.base files with
  | error refusal =>
    exact ⟨fun h => congrArg _ (Except.error.inj h), fun h => congrArg _ (Except.error.inj h)⟩
  | ok f => exact iff_of_false nofun nofun

theorem config_of_refused {e : ConfigError} (h : i.verdict files = .error e) :
    i.config files = .error e := by
  rw [config, verdict_eq_error_iff.1 h]
  rfl

/-- The verdict is that of the check, on what can be read. -/
theorem verdict_of_document (h : i.Document files es)
    (hf : Config.ofToml? (.table .header es) = some f) : i.verdict files = f.validate := by
  rw [verdict, base_eq_checked h, hf, Config.checked, Config.validated]
  cases f.validate <;> rfl

theorem verdict_of_unread (h : i.Document files es)
    (hnone : Config.ofToml? (.table .header es) = none) :
    i.verdict files = .error (.malformed (i.source files)) := by
  rw [verdict, base_eq_checked h, hnone]
  rfl

/-- Files that cannot be read as a configuration, so that each is refused with what it says. -/
def Unreadable (i : Invocation) (files files' : String → Except FileError (List Char)) : Prop :=
  i.verdict files = .error (.malformed (i.source files)) ∧
    i.verdict files' = .error (.malformed (i.source files'))

/-- Admitted values that options replace do not sway the check. -/
theorem verdict_congr (document : i.Document files es) (document' : i.Document files' es')
    (agree : AgreeBelow i.given es es')
    (admitted : ∀ t : TextSetting, t.given? i.given ≠ none → t.AdmittedIn es ∧ t.AdmittedIn es') :
    i.verdict files = i.verdict files' ∨ i.Unreadable files files' := by
  cases hread : Config.ofToml? (.table .header es) with
  | none =>
    cases hread' : Config.ofToml? (.table .header es') with
    | none => exact .inr ⟨verdict_of_unread document hread, verdict_of_unread document' hread'⟩
    | some f' =>
      -- what cannot be read stands at a place without an option, so it is in both documents
      obtain ⟨f, hf⟩ :=
        Config.exists_ofToml?_of_agree agree.symm hread' fun t ht => (admitted t ht).1
      cases hread.symm.trans hf
  | some f =>
    obtain ⟨f', hread'⟩ := Config.exists_ofToml?_of_agree agree hread fun t ht => (admitted t ht).2
    obtain ⟨htexts, hrefusal⟩ := Config.of_eq_of_agree agree hread hread'
    rw [verdict_of_document document hread, verdict_of_document document' hread']
    refine .inl (Config.validate_congr (fun t => ?_) hrefusal)
    by_cases ht : t.given? i.given = none
    · exact .inl (htexts t ht)
    · obtain ⟨hadmitted, hadmitted'⟩ := admitted t ht
      exact .inr ⟨hadmitted.admits hread, hadmitted'.admits hread'⟩

/-- Documents that agree below the options lead to the same configuration or the same refusal, if
the check of the file says the same of both. It does if it admits each value that an option
replaces, unless neither file can be read as a configuration: then each is refused with what it says
itself. What the check refuses stays refused, whatever options there are. -/
theorem overridden_values_irrelevant (i : Invocation)
    (files files' : String → Except FileError (List Char)) (es es' : Entries)
    (document : i.Document files es) (document' : i.Document files' es')
    (agree : AgreeBelow i.given es es') :
    (i.verdict files = i.verdict files' → i.config files = i.config files') ∧
    ((∀ t : TextSetting, t.given? i.given ≠ none → t.AdmittedIn es ∧ t.AdmittedIn es') →
      i.verdict files = i.verdict files' ∨ i.Unreadable files files') ∧
    ∀ e, i.verdict files = .error e → i.config files = .error e := by
  refine ⟨fun hsame => ?_, verdict_congr document document' agree, fun e => config_of_refused⟩
  cases hverdict : i.verdict files with
  | error e =>
    rw [config_of_refused hverdict, config_of_refused (hsame ▸ hverdict)]
  | ok =>
    obtain ⟨f, hf⟩ := verdict_eq_ok_iff.1 hverdict
    obtain ⟨f', hf'⟩ := verdict_eq_ok_iff.1 (hsame ▸ hverdict)
    obtain ⟨hread, -⟩ := Config.checked_eq_ok_iff.1 ((base_eq_checked document).symm.trans hf)
    obtain ⟨hread', -⟩ := Config.checked_eq_ok_iff.1 ((base_eq_checked document').symm.trans hf')
    rw [config_of_base hf, config_of_base hf', Config.override_eq_override agree hread hread']

/-- An interval of one second and one of nine minutes, below an option for it. -/
theorem overridden_values_irrelevant_interval :
    Sample.invocation.Document (Sample.intervalFile "1s") (Sample.intervalEntries "1s") ∧
    Sample.invocation.Document (Sample.intervalFile "9m") (Sample.intervalEntries "9m") ∧
    AgreeBelow Sample.invocation.given (Sample.intervalEntries "1s") (Sample.intervalEntries "9m") ∧
    Sample.invocation.config (Sample.intervalFile "1s") =
      Sample.invocation.config (Sample.intervalFile "9m") := by
  have document : Sample.invocation.Document (Sample.intervalFile "1s")
      (Sample.intervalEntries "1s") := ⟨_, rfl, rfl⟩
  have document' : Sample.invocation.Document (Sample.intervalFile "9m")
      (Sample.intervalEntries "9m") := ⟨_, rfl, rfl⟩
  have agree := Sample.agreeBelow_interval "1s" "9m"
  obtain ⟨hconfig, hverdict, -⟩ := overridden_values_irrelevant Sample.invocation
    (Sample.intervalFile "1s") (Sample.intervalFile "9m") _ _ document document' agree
  have hread : Sample.invocation.verdict (Sample.intervalFile "1s") = .ok () := by decide +kernel
  refine ⟨document, document', agree, hconfig ((hverdict fun t ht => ?_).resolve_right fun h => ?_)⟩
  · cases t with
    | interval =>
      exact ⟨⟨"1s", rfl, ⟨1000⟩, by decide +kernel⟩, ⟨"9m", rfl, ⟨540000⟩, by decide +kernel⟩⟩
    | _ => exact absurd rfl ht
  · cases hread.symm.trans h.1

/-- An interval that cannot be read is refused below an option for it. -/
theorem refused_below_option :
    Sample.invocation.Document (Sample.intervalFile "1s") (Sample.intervalEntries "1s") ∧
    Sample.invocation.Document (Sample.intervalFile "soon") (Sample.intervalEntries "soon") ∧
    AgreeBelow Sample.invocation.given (Sample.intervalEntries "1s")
      (Sample.intervalEntries "soon") ∧
    Sample.invocation.config (Sample.intervalFile "1s") =
      .ok ⟨.default, ⟨"250 ms", "install.py", "python"⟩, .default, .default⟩ ∧
    Sample.invocation.config (Sample.intervalFile "soon") = .error (.duration "soon") := by
  refine ⟨⟨_, rfl, rfl⟩, ⟨_, rfl, rfl⟩, Sample.agreeBelow_interval "1s" "soon", ?_, ?_⟩
  · decide +kernel
  · decide +kernel

end Invocation

end Rollout
