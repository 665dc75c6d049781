import Rollout.Proofs.Installation
import Rollout.Proofs.Settings
import Rollout.Proofs.Subscription

/-!
A configuration that the arguments lead to is ready to run.

It has been checked after the options were put above the file, so nothing unchecked is left in it,
whichever settings came from where. An installation takes both spans and the refusal from it: the
spans can be read, the watchdog of the run never waits for no time at all, and the refusal is
written as a number in every call that carries one, since what would be written as null is not
finite.
-/
namespace Rollout

namespace Decimal

theorem not_nan_or_inf {x : Float} (h : x.isFinite = true) :
    x.isNaN = false ∧ x.isInf = false := by
  change x.toModel.unpack.isFinite = true at h
  change x.toModel.unpack.isNaN = false ∧ x.toModel.unpack.isInf = false
  cases hx : x.toModel.unpack with
  | notANumber | infinity =>
    rw [hx] at h
    cases h
  | zero | finite => exact ⟨rfl, rfl⟩

/-- Every finite number has a form as a JSON number. -/
theorem exists_jsonNumber? {x : Float} (h : x.isFinite = true) :
    ∃ text, jsonNumber? x = some text := by
  obtain ⟨hnan, hinf⟩ := not_nan_or_inf h
  obtain ⟨negative, ds, e, hfinite⟩ :
      ∃ negative ds e, FloatText.ofFloat x = .finite negative ds e := by
    simp only [FloatText.ofFloat, hnan, hinf, Bool.false_eq_true, if_false]
    split
    · exact ⟨_, _, _, rfl⟩
    · exact ⟨_, _, _, rfl⟩
  simp only [jsonNumber?, hfinite]
  split
  · exact ⟨_, rfl⟩
  · exact ⟨_, rfl⟩

end Decimal

namespace Master

/-- A session refuses for as long as its registration says. -/
theorem Session.refusal_of_subscribe {r : Registration} {answer : Option Response}
    {session : Session} {feed : Feed} (h : subscribe r answer = .ok (session, feed)) :
    session.refusal = r.refusal := by
  obtain ⟨_, _, -, -, hresponse⟩ := subscribe_eq_ok_iff.1 h
  obtain ⟨_, _, _, -, -, rfl, -⟩ := ofResponse_eq_ok_iff.1 hresponse
  rfl

end Master

/-! ### Plans and their requests -/

open Master

variable {c : Config} {plan : Plan} {d : Dispatcher} {other : Counterpart}

/-- A configuration that a run can be made with has a plan, whose watchdog waits for some time. -/
theorem Config.Runnable.exists_plan (h : c.Runnable) (master : String) :
    ∃ plan, Plan.ofConfig master c = .ok plan ∧ c.launchInterval = .ok plan.interval ∧
      c.stallTimeout = .ok plan.timeout ∧ 0 < plan.timeout.millis ∧
      plan.registration = ⟨master, c.framework, c.offers.refuseSeconds⟩ := by
  obtain ⟨⟨interval, hinterval⟩, ⟨timeout, htimeout, hpos⟩, -, -, -⟩ := h
  refine ⟨⟨interval, timeout, master, c.framework, c.offers.refuseSeconds⟩, ?_, hinterval,
    htimeout, hpos, rfl⟩
  rw [Plan.ofConfig, hinterval, htimeout]
  rfl

namespace Installation

/-- The requests of a plan are its registration and what the commands of the run call for. -/
theorem call_of_mem_requests {q : Request} (h : q ∈ (ofPlan plan d other).requests) :
    q.call = .subscribe plan.registration.framework ∨ ∃ framework command,
      Call.ofCommand? framework plan.registration.refusal command = some q.call := by
  cases hendpoint : endpointOf plan.registration.master with
  | error e =>
    rw [ofPlan, Session.subscribe, hendpoint] at h
    exact absurd h List.not_mem_nil
  | ok endpoint =>
    cases hgranted : Session.subscribe plan.registration other.subscription with
    | error e =>
      rw [ofPlan, hendpoint, hgranted] at h
      rw [List.mem_singleton.1 h]
      exact .inl rfl
    | ok granted =>
      obtain ⟨session, feed⟩ := granted
      rw [ofPlan_of_granted hendpoint hgranted] at h
      rcases List.mem_cons.1 h with rfl | hposted
      · exact .inl rfl
      · have hmanager : (run plan d session other feed.events).final.manager =
            (session.manager other.answers).after .initial _ := Run.manager_followUntil rfl _ 0 _ _
        rw [hmanager] at hposted
        obtain ⟨command, -, hq⟩ := Session.exists_command_of_mem_posted hposted
        obtain ⟨call, hcall, rfl⟩ := Session.mem_requests_iff.1 hq
        exact .inr ⟨_, command, Session.refusal_of_subscribe hgranted ▸ hcall⟩

/-- Once there is a plan, nothing is wrong with the configuration any more. Either the subscription
fails, or the watchdog of the plan goes along with a run. -/
theorem outcome_ofPlan (plan : Plan) (d : Dispatcher) (other : Counterpart) :
    let done := ofPlan plan d other
    (∃ e, done.result = some (.error (.registration e)) ∧ done.watch = none) ∨
      (∃ close : Run.Close, done.result = close.map resultOf) ∧
        ∃ finish, done.watch =
          some (Watchdog.watch plan.timeout.millis .initial (done.trace.signals finish)) := by
  intro done
  cases hgranted : Session.subscribe plan.registration other.subscription with
  | error e =>
    refine .inl ⟨e, ?_⟩
    change (ofPlan plan d other).result = _ ∧ (ofPlan plan d other).watch = none
    rw [ofPlan, hgranted]
    exact ⟨rfl, rfl⟩
  | ok granted =>
    obtain ⟨session, feed⟩ := granted
    obtain ⟨_, _, hendpoint, -, -⟩ := Session.subscribe_eq_ok_iff.1 hgranted
    have hdone : done = _ := ofPlan_of_granted hendpoint hgranted
    rw [hdone]
    exact .inr ⟨⟨_, rfl⟩, _, rfl⟩

theorem result_ofPlan_ne_config (e : ConfigError) :
    (ofPlan plan d other).result ≠ some (.error (.config e)) := by
  intro h
  rcases outcome_ofPlan plan d other with ⟨refused, hresult, -⟩ | ⟨⟨close, hresult⟩, -⟩
  · cases hresult.symm.trans h
  · obtain ⟨ending, -, hending⟩ := Option.map_eq_some_iff.1 (hresult.symm.trans h)
    cases ending with
    | ok | error => cases hending

/-- A finite refusal is a number in the body of every request that carries one. -/
theorem refusalIn?_of_mem_requests (hfinite : plan.registration.refusal.isFinite = true)
    {q : Request} (hq : q ∈ (ofPlan plan d other).requests) {part : String}
    (hpart : q.call.refusalPart? = some part) :
    Call.refusalIn? part q.call.toJson = some (.float plan.registration.refusal) := by
  rcases call_of_mem_requests hq with hsubscribe | ⟨framework, command, hcall⟩
  · rw [hsubscribe] at hpart
    cases hpart
  · rw [Call.refusalIn?_of_ofCommand? hcall hpart]
    exact congrArg _ (if_pos hfinite)

end Installation

namespace Invocation

variable {i : Invocation} {readText : String → Except FileError (List Char)}

/-- What the file says that was named, and nothing if none was. -/
def Document (i : Invocation) (readText : String → Except FileError (List Char))
    (es : Toml.Entries) : Prop :=
  match i.configPath with
  | none => es = []
  | some path => ∃ text, readText path = .ok text ∧ Toml.parse? text = some es

theorem config_of_base {f : Config} (h : i.base readText = .ok f) :
    i.config readText = (f.override i.given).validated := by
  simp only [config, h, bind, Except.bind]

theorem config_eq_ok_iff : i.config readText = .ok c ↔
    ∃ f, i.base readText = .ok f ∧ f.override i.given = c ∧ c.Runnable := by
  cases hbase : i.base readText with
  | error e =>
    rw [config, hbase]
    exact iff_of_false nofun fun ⟨_, h, _⟩ => nomatch h
  | ok f =>
    simp only [config_of_base hbase, Config.validated_eq_ok_iff, Except.ok.injEq, exists_eq_left']
    constructor
    · rintro ⟨hrunnable, rfl⟩
      exact ⟨rfl, hrunnable⟩
    · rintro ⟨rfl, hrunnable⟩
      exact ⟨hrunnable, rfl⟩

/-- The text of the file that was named, if there is one. -/
def source (i : Invocation) (readText : String → Except FileError (List Char)) : List Char :=
  match i.configPath with
  | none => []
  | some path => (readText path).toOption.getD []

/-- Without the options, the configuration is that of the document, once it has been checked. -/
theorem base_eq_checked {es : Toml.Entries} (h : i.Document readText es) :
    i.base readText = Config.checked (i.source readText) (Config.ofToml? (.table .header es)) := by
  rw [Document] at h
  rw [base, source]
  cases hpath : i.configPath with
  | none =>
    rw [hpath] at h
    subst h
    change Except.ok Config.default = Config.checked [] (Config.ofToml? (.table .header []))
    decide +kernel
  | some path =>
    rw [hpath] at h
    obtain ⟨text, htext, hparse⟩ := h
    change Config.ofFile path (readText path) = Config.checked ((readText path).toOption.getD []) _
    rw [htext, Config.ofFile, Config.ofText_eq_checked, Config.read?, hparse]
    rfl

theorem exists_document {f : Config} (h : i.base readText = .ok f) :
    ∃ es, i.Document readText es := by
  simp only [Document]
  cases hpath : i.configPath with
  | none => exact ⟨[], rfl⟩
  | some path =>
    rw [base, hpath] at h
    change Config.ofFile path (readText path) = .ok f at h
    cases htext : readText path with
    | error e =>
      rw [htext] at h
      cases h
    | ok text =>
      rw [htext, Config.ofFile, Config.ofText_eq_checked, Config.checked_eq_ok_iff] at h
      obtain ⟨es, hparse, -⟩ := Option.bind_eq_some_iff.1 h.1
      exact ⟨es, text, htext, hparse⟩

/-- If the arguments lead to a configuration, then each setting in it is what its option says, or
else what the file says, or else its default, and the refusal and the interpreter, which have no
option, are the file's or the default. A run can be made with the configuration: an installation
with it does not fail on its spans, and unless the subscription fails, a watchdog goes along with
the run, one that waits for some time. Every request tells its type in its body, and for those that
accept or decline offers the refusal is there, as a number. -/
theorem config_ready_to_run (i : Invocation)
    (readText : String → Except FileError (List Char)) (c : Config)
    (arguments : i.config readText = .ok c) :
    (∃ es, i.Document readText es ∧
      (∀ t : TextSetting, ∃ file : Option String, t.location.slot? es = some (file.map .text) ∧
        t.of c = ((t.given? i.given).or file).getD (t.of .default)) ∧
      OfferSettings.refusal? es = some c.offers.refuseSeconds) ∧
    c.Runnable ∧
    ∀ master d other,
      let done := Installation.ofConfig master c d other
      (∀ e, done.result ≠ some (.error (.config e))) ∧
      (∃ plan, Plan.ofConfig master c = .ok plan ∧ done = .ofPlan plan d other ∧
        c.launchInterval = .ok plan.interval ∧ c.stallTimeout = .ok plan.timeout ∧
        0 < plan.timeout.millis ∧
        ((∃ e, done.result = some (.error (.registration e))) ∨ ∃ finish, done.watch =
          some (Watchdog.watch plan.timeout.millis .initial (done.trace.signals finish)))) ∧
      ∀ q ∈ done.requests, q.call.toJson.get? "type" = some (.str q.call.type) ∧
        ∀ part, q.call.refusalPart? = some part →
          Call.refusalIn? part q.call.toJson = some (.float c.offers.refuseSeconds) ∧
          ∃ text, Decimal.jsonNumber? c.offers.refuseSeconds = some text ∧
            Json.render (.float c.offers.refuseSeconds) = text := by
  obtain ⟨f, hbase, rfl, hrunnable⟩ := config_eq_ok_iff.1 arguments
  obtain ⟨es, hdocument⟩ := exists_document hbase
  rw [base_eq_checked hdocument, Config.checked_eq_ok_iff] at hbase
  obtain ⟨htexts, hrefusal⟩ := Config.ofToml?_eq_some_iff.1 hbase.1
  refine ⟨⟨es, hdocument, fun t => ?_, hrefusal⟩, hrunnable, fun master d other => ?_⟩
  · obtain ⟨slot, hslot, hfield⟩ := Option.bind_eq_some_iff.1 (htexts t)
    obtain ⟨file, rfl, htext⟩ := Toml.field_text?_eq_some_iff.1 hfield
    refine ⟨file, hslot, ?_⟩
    rw [Config.of_override, htext]
    cases t.given? i.given <;> rfl
  · intro done
    obtain ⟨plan, hplan, hinterval, htimeout, hpos, hregistration⟩ := hrunnable.exists_plan master
    have hdone : done = .ofPlan plan d other := Installation.ofConfig_of_plan hplan
    have hrefusal : plan.registration.refusal = (f.override i.given).offers.refuseSeconds := by
      rw [hregistration]
    refine ⟨fun e => ?_, ⟨plan, hplan, hdone, hinterval, htimeout, hpos, ?_⟩,
      fun q hq => ⟨q.call.get?_type, fun part hpart => ?_⟩⟩
    · rw [hdone]
      exact Installation.result_ofPlan_ne_config e
    · rw [hdone]
      rcases Installation.outcome_ofPlan plan d other with ⟨e, hresult, -⟩ | ⟨-, hwatch⟩
      · exact .inl ⟨e, hresult⟩
      · exact .inr hwatch
    · rw [hdone] at hq
      have hfinite := hrunnable.finite
      obtain ⟨text, htext⟩ := Decimal.exists_jsonNumber? hfinite
      rw [← hrefusal] at hfinite
      refine ⟨?_, text, htext, ?_⟩
      · rw [← hrefusal]
        exact Installation.refusalIn?_of_mem_requests hfinite hq hpart
      · rw [Json.render, htext]
        rfl

end Invocation

namespace Sample

/-- A file with a script and a refusal, and options for its path and for the interval. -/
def invocation : Invocation where
  master := "m"
  payloadUrl := "u"
  first := "a"
  second := "b"
  given := [(.config, "c.toml"), (.launchInterval, "250 ms")]
  logJson := false

def fileText : String :=
  "[launch]\nscript = \"i.py\"\ninterval = \"1s\"\n[offers]\nrefuse_seconds = 7\n"

end Sample

namespace Invocation

/-- The interval is the option's, the script and the refusal are the file's, and the timeout is the
default. The run has a watchdog, and there is an acceptance and a refusal among its requests. -/
theorem config_ready_to_run_mixed :
    let c : Config := ⟨.default, ⟨"250 ms", "i.py", "python"⟩, ⟨7.0⟩, .default⟩
    let done := Installation.ofConfig "m" c Sample.dispatcher Sample.counterpart
    Sample.invocation.config (fun _ => .ok Sample.fileText.toList) = .ok c ∧ c.Runnable ∧
      (∃ plan, Plan.ofConfig "m" c = .ok plan ∧ 0 < plan.timeout.millis ∧ ∃ finish, done.watch =
        some (Watchdog.watch plan.timeout.millis .initial (done.trace.signals finish))) ∧
      (∃ q ∈ done.requests, q.call.toJson.get? "type" = some (.str "ACCEPT") ∧
        Call.refusalIn? "accept" q.call.toJson = some (.float 7.0)) ∧
      ∃ q ∈ done.requests, q.call.toJson.get? "type" = some (.str "DECLINE") ∧
        Call.refusalIn? "decline" q.call.toJson = some (.float 7.0) := by
  intro c done
  have hconfig : Sample.invocation.config (fun _ => .ok Sample.fileText.toList) = .ok c := by
    decide +kernel
  obtain ⟨-, hrunnable, hdone⟩ := config_ready_to_run _ _ c hconfig
  obtain ⟨-, ⟨plan, hplan, -, -, -, hpos, hwatch⟩, hbodies⟩ :=
    hdone "m" Sample.dispatcher Sample.counterpart
  have hrun : (done.result, done.requests.map fun q => (q.call.type, q.call.refusalPart?)) =
      (some (.ok (.completed 1)), [("SUBSCRIBE", none), ("ACCEPT", some "accept"),
        ("DECLINE", some "decline"), ("TEARDOWN", none)]) := by
    decide +kernel
  obtain ⟨hresult, hposted⟩ := Prod.mk.inj hrun
  have hcarried {kind part : String}
      (h : (kind, some part) ∈ done.requests.map fun q => (q.call.type, q.call.refusalPart?)) :
      ∃ q ∈ done.requests, q.call.toJson.get? "type" = some (.str kind) ∧
        Call.refusalIn? part q.call.toJson = some (.float 7.0) := by
    obtain ⟨q, hq, htells⟩ := List.mem_map.1 h
    obtain ⟨rfl, hpart⟩ := Prod.mk.inj htells
    exact ⟨q, hq, (hbodies q hq).1, ((hbodies q hq).2 part hpart).1⟩
  refine ⟨hconfig, hrunnable, ⟨plan, hplan, hpos, ?_⟩, hcarried ?_, hcarried ?_⟩
  · rcases hwatch with ⟨e, he⟩ | hwatch
    · cases hresult.symm.trans he
    · exact hwatch
  · rw [hposted]
    exact List.mem_cons_of_mem _ List.mem_cons_self
  · rw [hposted]
    exact List.mem_cons_of_mem _ (List.mem_cons_of_mem _ List.mem_cons_self)

end Invocation

end Rollout
