import Mathlib.Data.List.Basic
import Rollout.CommandLine
import Rollout.Proofs.Text

/-!
Where settings come from, and what the check of a configuration grants.

A setting is what an option says, or else what the file says at its place, or else its default; the
interpreter and the refusal have no option. A configuration passes its check exactly if a run can be
made with it: both spans can be read, the watchdog waits for some time, the refusal is a number that
is not negative, and there is a script to fetch.
-/
namespace Rollout

namespace Toml

/-- Where a setting stands in a document: the heading of its section, the keys of that section
in order, and its own one among them. -/
structure Location where
  heading : String
  keys : List String
  key : String

/-- What a document has for each key of a section; a section that is left out has nothing. -/
def slots? (heading : String) (keys : List String) (es : Entries) : Option (List (Option Value)) :=
  match es.lookup heading with
  | some v => fields? keys v
  | none => some (ofNamed keys [])

namespace Location

/-- What stands at a place, among what its section has for each key. -/
def among (p : Location) (slots : List (Option Value)) : Option Value :=
  ((p.keys.zip slots).lookup p.key).join

/-- What a document has at a place, if anything, unless its section is no record. -/
def slot? (p : Location) (es : Entries) : Option (Option Value) :=
  (slots? p.heading p.keys es).map p.among

end Location

theorem length_ofPlaces (names : List String) (vs : List Value) :
    (ofPlaces names vs).length = names.length := by
  induction names generalizing vs with
  | nil => rfl
  | cons name names ih => cases vs <;> simp [ofPlaces, ih]

theorem length_of_fields? {keys : List String} {v : Value} {slots : List (Option Value)}
    (h : fields? keys v = some slots) : slots.length = keys.length := by
  cases v with
  | table | date =>
    cases h
    exact List.length_map _
  | array | tables =>
    cases h
    exact length_ofPlaces ..
  | _ => cases h

theorem length_of_slots? {heading : String} {keys : List String} {es : Entries}
    {slots : List (Option Value)} (h : slots? heading keys es = some slots) :
    slots.length = keys.length := by
  rw [slots?] at h
  split at h
  · exact length_of_fields? h
  · cases h
    exact List.length_map _

/-- A section is read from what the document has for its keys. -/
theorem field_lookup {σ : Type} {section? : Value → Option σ} {missing : σ} {keys : List String}
    {read : List (Option Value) → Option σ} (es : Entries) (heading : String)
    (hsection : ∀ v, section? v = (fields? keys v).bind read)
    (hmissing : read (ofNamed keys []) = some missing) :
    field missing section? (es.lookup heading) = (slots? heading keys es).bind read := by
  rw [slots?]
  cases es.lookup heading with
  | none => exact hmissing.symm
  | some v => exact hsection v

theorem field_text?_eq_some_iff {missing s : String} {v : Option Value} :
    field missing text? v = some s ↔
      ∃ given : Option String, v = given.map Value.text ∧ s = given.getD missing := by
  constructor
  · intro h
    cases v with
    | none =>
      cases h
      exact ⟨none, rfl, rfl⟩
    | some v =>
      cases v with
      | text =>
        cases h
        exact ⟨some _, rfl, rfl⟩
      | _ => cases h
  · rintro ⟨given, rfl, rfl⟩
    cases given <;> rfl

end Toml

/-! ### Settings by their place -/

/-- The settings that are texts. -/
inductive TextSetting where
  | name | user | interval | script | interpreter | stallTimeout
  deriving DecidableEq, Repr

namespace TextSetting

/-- What a configuration has for a setting. -/
def of (c : Config) : TextSetting → String
  | .name => c.framework.name
  | .user => c.framework.user
  | .interval => c.launch.interval
  | .script => c.launch.script
  | .interpreter => c.launch.interpreter
  | .stallTimeout => c.watchdog.stallTimeout

/-- The option for a setting. -/
def option? : TextSetting → Option Setting
  | .name => some .name
  | .user => some .user
  | .interval => some .launchInterval
  | .script => some .script
  | .interpreter => none
  | .stallTimeout => some .stallTimeout

/-- The place of a setting in a file. -/
def location : TextSetting → Toml.Location
  | .name => ⟨"framework", ["name", "user"], "name"⟩
  | .user => ⟨"framework", ["name", "user"], "user"⟩
  | .interval => ⟨"launch", ["interval", "script", "interpreter"], "interval"⟩
  | .script => ⟨"launch", ["interval", "script", "interpreter"], "script"⟩
  | .interpreter => ⟨"launch", ["interval", "script", "interpreter"], "interpreter"⟩
  | .stallTimeout => ⟨"watchdog", ["stall_timeout"], "stall_timeout"⟩

/-- What the options say of a setting. -/
def given? (given : List (Setting × String)) (t : TextSetting) : Option String :=
  t.option?.bind fun s => given.lookup s

end TextSetting

/-- The place of the refusal in a file. -/
def OfferSettings.location : Toml.Location := ⟨"offers", ["refuse_seconds"], "refuse_seconds"⟩

open Toml

variable {es : Entries} {c : Config} {origin : Origin}

/-- What a document says of a setting, which is the default if it says nothing. -/
def TextSetting.read? (t : TextSetting) (es : Entries) : Option String :=
  (t.location.slot? es).bind (field (t.of .default) text?)

/-- What a document says of the refusal, which is the default if it says nothing. -/
def OfferSettings.refusal? (es : Entries) : Option Float :=
  (location.slot? es).bind (field default.refuseSeconds double?)

theorem FrameworkInfo.field_ofToml?_eq_some_iff {f : FrameworkInfo} :
    field default ofToml? (es.lookup "framework") = some f ↔
      TextSetting.name.read? es = some f.name ∧ TextSetting.user.read? es = some f.user := by
  obtain ⟨a, b⟩ := f
  have hread : field default ofToml? (es.lookup "framework") = _ :=
    field_lookup es "framework" (fun _ => rfl) rfl
  have hfields {x y : Option String} :
      (do some (⟨← x, ← y⟩ : FrameworkInfo)) = some ⟨a, b⟩ ↔ x = some a ∧ y = some b := by
    simp [Option.bind_eq_some_iff]
  rw [hread]
  simp only [TextSetting.read?, Location.slot?, TextSetting.location]
  cases hslots : slots? "framework" ["name", "user"] es with
  | none => simp
  | some slots =>
    obtain ⟨name, user, rfl⟩ := List.length_eq_two.1 (length_of_slots? hslots)
    exact hfields

theorem LaunchSettings.field_ofToml?_eq_some_iff {s : LaunchSettings} :
    field default ofToml? (es.lookup "launch") = some s ↔
      TextSetting.interval.read? es = some s.interval ∧
        TextSetting.script.read? es = some s.script ∧
        TextSetting.interpreter.read? es = some s.interpreter := by
  obtain ⟨a, b, c⟩ := s
  have hread : field default ofToml? (es.lookup "launch") = _ :=
    field_lookup es "launch" (fun _ => rfl) rfl
  have hfields {x y z : Option String} :
      (do some (⟨← x, ← y, ← z⟩ : LaunchSettings)) = some ⟨a, b, c⟩ ↔
        x = some a ∧ y = some b ∧ z = some c := by
    simp [Option.bind_eq_some_iff]
  rw [hread]
  simp only [TextSetting.read?, Location.slot?, TextSetting.location]
  cases hslots : slots? "launch" ["interval", "script", "interpreter"] es with
  | none => simp
  | some slots =>
    obtain ⟨interval, script, interpreter, rfl⟩ :=
      List.length_eq_three.1 (length_of_slots? hslots)
    exact hfields

theorem OfferSettings.field_ofToml?_eq_some_iff {s : OfferSettings} :
    field default ofToml? (es.lookup "offers") = some s ↔
      refusal? es = some s.refuseSeconds := by
  obtain ⟨a⟩ := s
  have hread : field default ofToml? (es.lookup "offers") = _ :=
    field_lookup es "offers" (fun _ => rfl) rfl
  have hfields {x : Option Float} :
      (do some (⟨← x⟩ : OfferSettings)) = some ⟨a⟩ ↔ x = some a := by
    simp [Option.bind_eq_some_iff]
  rw [hread]
  simp only [refusal?, Location.slot?, location]
  cases hslots : slots? "offers" ["refuse_seconds"] es with
  | none => simp
  | some slots =>
    obtain ⟨refuse, rfl⟩ := List.length_eq_one_iff.1 (length_of_slots? hslots)
    exact hfields

theorem WatchdogSettings.field_ofToml?_eq_some_iff {s : WatchdogSettings} :
    field default ofToml? (es.lookup "watchdog") = some s ↔
      TextSetting.stallTimeout.read? es = some s.stallTimeout := by
  obtain ⟨a⟩ := s
  have hread : field default ofToml? (es.lookup "watchdog") = _ :=
    field_lookup es "watchdog" (fun _ => rfl) rfl
  have hfields {x : Option String} :
      (do some (⟨← x⟩ : WatchdogSettings)) = some ⟨a⟩ ↔ x = some a := by
    simp [Option.bind_eq_some_iff]
  rw [hread]
  simp only [TextSetting.read?, Location.slot?, TextSetting.location]
  cases hslots : slots? "watchdog" ["stall_timeout"] es with
  | none => simp
  | some slots =>
    obtain ⟨timeout, rfl⟩ := List.length_eq_one_iff.1 (length_of_slots? hslots)
    exact hfields

namespace Config

/-- A document is a configuration exactly if that has what the document says of each setting. -/
theorem ofToml?_eq_some_iff : ofToml? (.table origin es) = some c ↔
    (∀ t : TextSetting, t.read? es = some (t.of c)) ∧
      OfferSettings.refusal? es = some c.offers.refuseSeconds := by
  have hsections : ofToml? (.table origin es) = some c ↔
      field .default FrameworkInfo.ofToml? (es.lookup "framework") = some c.framework ∧
      field .default LaunchSettings.ofToml? (es.lookup "launch") = some c.launch ∧
      field .default OfferSettings.ofToml? (es.lookup "offers") = some c.offers ∧
      field .default WatchdogSettings.ofToml? (es.lookup "watchdog") = some c.watchdog := by
    obtain ⟨framework, launch, offers, watchdog⟩ := c
    simp [ofToml?, fields?, ofNamed, Option.bind_eq_some_iff]
  rw [hsections, FrameworkInfo.field_ofToml?_eq_some_iff, LaunchSettings.field_ofToml?_eq_some_iff,
    OfferSettings.field_ofToml?_eq_some_iff, WatchdogSettings.field_ofToml?_eq_some_iff]
  constructor
  · rintro ⟨⟨hname, huser⟩, ⟨hinterval, hscript, hinterpreter⟩, hrefusal, htimeout⟩
    refine ⟨fun t => ?_, hrefusal⟩
    cases t with
    | name => exact hname
    | user => exact huser
    | interval => exact hinterval
    | script => exact hscript
    | interpreter => exact hinterpreter
    | stallTimeout => exact htimeout
  · rintro ⟨h, hrefusal⟩
    exact ⟨⟨h .name, h .user⟩, ⟨h .interval, h .script, h .interpreter⟩, hrefusal, h .stallTimeout⟩

/-- An option stands above the file. -/
theorem of_override (c : Config) (given : List (Setting × String)) (t : TextSetting) :
    t.of (c.override given) = (t.given? given).getD (t.of c) := by
  cases t <;> rfl

end Config

/-! ### The check -/

namespace Decimal

/-- Among finite numbers the ones that are not below zero are the ones from zero on. -/
theorem not_lt_zero_iff {x : Float} (h : x.isFinite = true) : ¬ x < 0.0 ↔ 0.0 ≤ x := by
  have hzero : (0.0 : Float).toModel.unpack = .zero .positive := rfl
  have hlt : x < 0.0 ↔ x.toModel.unpack.lt (0.0 : Float).toModel.unpack = true :=
    decide_eq_true_iff (p := x.toModel < (0.0 : Float).toModel)
  have hle : 0.0 ≤ x ↔ (0.0 : Float).toModel.unpack.le x.toModel.unpack = true :=
    decide_eq_true_iff (p := (0.0 : Float).toModel ≤ x.toModel)
  change x.toModel.unpack.isFinite = true at h
  rw [hlt, hle, hzero]
  cases hx : x.toModel.unpack with
  | notANumber | infinity =>
    rw [hx] at h
    cases h
  | zero sign => exact iff_of_true nofun rfl
  | finite sign mantissa exponent =>
    cases sign with
    | positive => exact iff_of_true nofun rfl
    | negative => exact iff_of_false (not_not_intro rfl) nofun

end Decimal

namespace Text

theorem trim_eq_nil_iff {s : List Char} : trim s = [] ↔ ∀ c ∈ s, isBlank c = true := by
  rw [trim_eq_iff]
  constructor
  · rintro ⟨-, before, after, hbefore, hafter, rfl⟩
    rw [List.append_nil]
    exact List.forall_mem_append.2 ⟨hbefore, hafter⟩
  · intro h
    exact ⟨trimmed_of_forall (List.forall_mem_nil _), s, [], h, List.forall_mem_nil _, by simp⟩

theorem isEmpty_trim_iff {s : List Char} :
    (trim s).isEmpty = true ↔ ¬ ∃ c ∈ s, isBlank c = false := by
  rw [List.isEmpty_iff, trim_eq_nil_iff]
  simp

end Text

theorem Duration.isZero_iff {d : Duration} : d.isZero = true ↔ ¬ 0 < d.millis := by
  rw [isZero, beq_iff_eq, Nat.pos_iff_ne_zero, not_not]

namespace Config

/-- What a run needs of its configuration. -/
structure Runnable (c : Config) : Prop where
  interval : ∃ d, c.launchInterval = .ok d
  timeout : ∃ d, c.stallTimeout = .ok d ∧ 0 < d.millis
  finite : c.offers.refuseSeconds.isFinite = true
  nonneg : 0.0 ≤ c.offers.refuseSeconds
  script : ∃ char ∈ c.launch.script.toList, Text.isBlank char = false

theorem fault?_eq_none_iff {timeout : Duration} : c.fault? timeout = none ↔
    0 < timeout.millis ∧ (c.offers.refuseSeconds.isFinite = true ∧ 0.0 ≤ c.offers.refuseSeconds) ∧
      ∃ char ∈ c.launch.script.toList, Text.isBlank char = false := by
  have hrefuse : (!c.offers.refuseSeconds.isFinite || decide (c.offers.refuseSeconds < 0.0)) = true
      ↔ ¬ (c.offers.refuseSeconds.isFinite = true ∧ 0.0 ≤ c.offers.refuseSeconds) := by
    by_cases hfinite : c.offers.refuseSeconds.isFinite = true
    · rw [← Decimal.not_lt_zero_iff hfinite]
      simp [hfinite]
    · simp [hfinite]
  rw [fault?]
  split_ifs with htimeout hrefusal hblank
  · exact iff_of_false nofun fun h => Duration.isZero_iff.1 htimeout h.1
  · exact iff_of_false nofun fun h => hrefuse.1 hrefusal h.2.1
  · exact iff_of_false nofun fun h => Text.isEmpty_trim_iff.1 hblank h.2.2
  · exact iff_of_true rfl ⟨not_not.1 (mt Duration.isZero_iff.2 htimeout),
      not_not.1 (mt hrefuse.2 hrefusal), not_not.1 (mt Text.isEmpty_trim_iff.2 hblank)⟩

/-- The check reads both spans in order, and then looks for a fault. -/
theorem validate_eq (c : Config) : c.validate = c.launchInterval.bind fun _ =>
    c.stallTimeout.bind fun timeout => (c.fault? timeout).elim (.ok ()) .error := by
  rw [validate]
  refine congrArg c.launchInterval.bind (funext fun _ =>
    congrArg c.stallTimeout.bind (funext fun timeout => ?_))
  cases c.fault? timeout <;> rfl

/-- A configuration passes its check exactly if a run can be made with it. -/
theorem validate_eq_ok_iff : c.validate = .ok () ↔ c.Runnable := by
  rw [validate_eq]
  cases hinterval : c.launchInterval with
  | error e =>
    refine iff_of_false nofun fun h => ?_
    obtain ⟨d, hd⟩ := h.interval
    cases hinterval.symm.trans hd
  | ok interval =>
    cases htimeout : c.stallTimeout with
    | error e =>
      refine iff_of_false nofun fun h => ?_
      obtain ⟨d, hd, -⟩ := h.timeout
      cases htimeout.symm.trans hd
    | ok timeout =>
      have hfault : (c.fault? timeout).elim (.ok ()) .error = Except.ok () ↔
          c.fault? timeout = none := by
        cases c.fault? timeout with
        | none => exact iff_of_true rfl rfl
        | some e => exact iff_of_false nofun nofun
      refine hfault.trans (fault?_eq_none_iff.trans ⟨?_, ?_⟩)
      · rintro ⟨hpos, ⟨hfinite, hnonneg⟩, hscript⟩
        exact ⟨⟨_, hinterval⟩, ⟨_, htimeout, hpos⟩, hfinite, hnonneg, hscript⟩
      · rintro ⟨-, ⟨d, hd, hpos⟩, hfinite, hnonneg, hscript⟩
        cases htimeout.symm.trans hd
        exact ⟨hpos, ⟨hfinite, hnonneg⟩, hscript⟩

theorem validated_eq_ok_iff {c' : Config} : c.validated = .ok c' ↔ c.Runnable ∧ c = c' := by
  rw [validated, ← validate_eq_ok_iff]
  cases c.validate with
  | error e => exact iff_of_false nofun fun h => nomatch h.1
  | ok => exact ⟨fun h => ⟨rfl, Except.ok.inj h⟩, fun h => congrArg _ h.2⟩

/-- The outcome of reading a configuration from a text, with the check if there is one. -/
def checked (text : List Char) : Option Config → Except ConfigError Config
  | some c => c.validated
  | none => .error (.malformed text)

theorem ofText_eq_checked (text : List Char) : ofText text = checked text (read? text) := by
  rw [ofText]
  cases read? text <;> rfl

theorem checked_eq_ok_iff {text : List Char} {read : Option Config} :
    checked text read = .ok c ↔ read = some c ∧ c.Runnable := by
  cases read with
  | none => exact iff_of_false nofun fun h => nomatch h.1
  | some f =>
    refine validated_eq_ok_iff.trans ⟨?_, ?_⟩
    · rintro ⟨hrunnable, rfl⟩
      exact ⟨rfl, hrunnable⟩
    · rintro ⟨heq, hrunnable⟩
      cases heq
      exact ⟨hrunnable, rfl⟩

end Config

end Rollout
