import Rollout.Config.Json
import Rollout.Proofs.Likeness

/-!
What is written is read back.

A record is written with all its fields by name, and reading goes by the names. So what was written
is read back, also if the fields are in another order and others have joined them, or if there is an
array of the values in place of an object, at any depth. All settings have defaults, so any part of
a written configuration can be left out, and then the defaults stand for just these parts.
-/
namespace Rollout

open Json

namespace Json

variable {α : Type} {read : Json → Option α} {write : α → Json} {like : Likeness}
  {legal : α → Prop}

/-- Every legal value is read back from what it is written as, and from all that is alike. -/
def ReadsBack (legal : α → Prop) (write : α → Json) (read : Json → Option α)
    (like : Likeness) : Prop :=
  ∀ a, legal a → read (write a) = some a ∧ ∀ w, like (write a) w → read w = some a

theorem Respects.readsBack (h : Respects read like)
    (hback : ∀ a, legal a → read (write a) = some a) : ReadsBack legal write read like :=
  fun a ha => ⟨hback a ha, fun _ hw => (h hw).symm.trans (hback a ha)⟩

theorem list?_map {as : List α} (h : ∀ a ∈ as, read (write a) = some a) :
    list? read (.arr (as.map write)) = some as := by
  rw [list?]
  induction as with
  | nil => rfl
  | cons a as ih =>
    obtain ⟨hfirst, hrest⟩ := List.forall_mem_cons.1 h
    rw [List.map_cons, List.mapM_cons, hfirst, ih hrest]
    rfl

theorem float?_number {x : Float} (h : x.isFinite = true) : float? (.number x) = some x := by
  rw [number, if_pos h]
  rfl

theorem nullable?_ofText? (text : Option String) : nullable? string? (ofText? text) = some text := by
  cases text <;> rfl

/-! ### Leaving out -/

mutual

/-- A value without the parts that are gone, each of which is given by the names that lead to it
through objects. -/
def leaveOut (gone : List String → Bool) : Json → Json
  | .obj members => .obj (leaveOutOf gone members)
  | v => v

/-- The members that are left of an object. -/
def leaveOutOf (gone : List String → Bool) : List (String × Json) → List (String × Json)
  | [] => []
  | (name, v) :: rest =>
    if gone [name] then leaveOutOf gone rest
    else (name, leaveOut (fun path => gone (name :: path)) v) :: leaveOutOf gone rest

end

mutual

theorem leaveOut_nothing : ∀ v : Json, v.leaveOut (fun _ => false) = v
  | .obj members => congrArg Json.obj (leaveOutOf_nothing members)
  | .null | .bool _ | .int _ | .float _ | .str _ | .arr _ | .unusable => rfl

theorem leaveOutOf_nothing :
    ∀ members : List (String × Json), leaveOutOf (fun _ => false) members = members
  | [] => rfl
  | (name, v) :: rest => by
    rw [leaveOutOf, leaveOut_nothing v, leaveOutOf_nothing rest]
    rfl

end

/-- What is left for a field of an object. -/
def slotWithout (gone : List String → Bool) (m : String × Json) : Slot :=
  if gone [m.1] then .unnamed else .given (m.2.leaveOut fun path => gone (m.1 :: path))

variable {gone : List String → Bool} {ms : List (String × Json)} {m : String × Json}

theorem mem_of_mem_leaveOutOf (h : m ∈ leaveOutOf gone ms) : m.1 ∈ ms.map (·.1) := by
  induction ms with
  | nil => cases h
  | cons first rest ih =>
    rw [leaveOutOf] at h
    split at h
    · exact List.mem_cons_of_mem _ (ih h)
    · rcases List.mem_cons.1 h with rfl | h
      · exact List.mem_cons_self
      · exact List.mem_cons_of_mem _ (ih h)

theorem valuesOf_leaveOutOf (hnames : (ms.map (·.1)).Nodup) (h : m ∈ ms) :
    valuesOf m.1 (leaveOutOf gone ms) =
      if gone [m.1] then [] else [m.2.leaveOut fun path => gone (m.1 :: path)] := by
  induction ms with
  | nil => cases h
  | cons first rest ih =>
    rw [List.map_cons, List.nodup_cons] at hnames
    obtain ⟨hfirst, hrest⟩ := hnames
    rw [leaveOutOf]
    rcases List.mem_cons.1 h with rfl | hmem
    -- no other member has the name of the first
    · have hnone : valuesOf m.1 (leaveOutOf gone rest) = [] :=
        valuesOf_eq_nil fun m' hm' heq => hfirst (heq ▸ mem_of_mem_leaveOutOf hm')
      split
      · exact hnone
      · rw [valuesOf_cons_self, hnone]
    · have hother : first.1 ≠ m.1 := fun heq => hfirst (heq ▸ List.mem_map_of_mem hmem)
      split
      · exact ih hrest hmem
      · rw [valuesOf_cons_of_ne hother]
        exact ih hrest hmem

/-- What is left of an object that has the fields in order, each once. -/
theorem slots?_leaveOut {names : List String} {v : Json} (gone : List String → Bool)
    (hv : v = .obj ms) (hnames : names = ms.map (·.1)) (honce : names.Nodup) :
    slots? names (v.leaveOut gone) = some (ms.map (slotWithout gone)) := by
  subst hv hnames
  have hvalues (m : String × Json) (hm : m ∈ ms) : valuesOf m.1 (leaveOutOf gone ms) =
      if gone [m.1] then [] else [m.2.leaveOut fun path => gone (m.1 :: path)] :=
    valuesOf_leaveOutOf honce hm
  have hnamed : namedOnce (ms.map (·.1)) (leaveOutOf gone ms) = true := by
    refine namedOnce_eq_true_iff.2 (List.forall_mem_map.2 fun m hm => ?_)
    rw [hvalues m hm]
    split <;> simp
  have hslots : (ms.map (·.1)).map (Slot.ofNamed · (leaveOutOf gone ms)) =
      ms.map (slotWithout gone) := by
    rw [List.map_map]
    refine List.map_congr_left fun m hm => ?_
    simp only [Function.comp_apply, Slot.ofNamed, lookup_eq_head?, hvalues m hm, slotWithout]
    by_cases hgone : gone [m.1] = true <;> simp [hgone]
  simp only [leaveOut, slots?, hnamed, if_true, hslots]

/-- An object that has the fields in order, each once, has its values for them. -/
theorem slots?_fields {names : List String} {v : Json} (hv : v = .obj ms)
    (hnames : names = ms.map (·.1)) (honce : names.Nodup) :
    slots? names v = some (ms.map fun m => .given m.2) := by
  have h := slots?_leaveOut (fun _ => false) hv hnames honce
  rw [leaveOut_nothing] at h
  rw [h]
  exact congrArg some (List.map_congr_left fun m _ => congrArg Slot.given (leaveOut_nothing m.2))

/-- A setting that may have been left out. -/
theorem withDefault_slotWithout {a default : α} {name : String} {v : Json}
    (h : read (v.leaveOut fun path => gone (name :: path)) = some a) :
    (slotWithout gone (name, v)).withDefault default read =
      some (if gone [name] then default else a) := by
  simp only [slotWithout]
  split
  · rfl
  · exact h

end Json

/-! ### Offers, tasks and reports -/

namespace Resource

def fields : Fields := [("name", Eq), ("amount", Eq)]

theorem respects_ofJson? : Respects ofJson? (RecordAlike fields) :=
  respects_record (fun _ => rfl) fun as bs h => by
    rcases h with _ | ⟨hname, _ | ⟨hamount, _ | _⟩⟩
    simp only [hname.required (respects_eq _), hamount.required (respects_eq _)]

theorem ofJson?_toJson {r : Resource} (h : r.amount.isFinite = true) :
    ofJson? r.toJson = some r := by
  have hslots : slots? ["name", "amount"] r.toJson = _ := slots?_fields rfl rfl (by decide)
  simp [ofJson?, hslots, Slot.required, string?, float?_number h]

end Resource

namespace Offer

def fields : Fields :=
  [("id", Eq), ("agent_id", Eq), ("hostname", Eq),
   ("resources", ListAlike (RecordAlike Resource.fields))]

theorem respects_ofJson? : Respects ofJson? (RecordAlike fields) :=
  respects_record (fun _ => rfl) fun as bs h => by
    rcases h with _ | ⟨hid, _ | ⟨hagent, _ | ⟨hhost, _ | ⟨hresources, _ | _⟩⟩⟩⟩
    simp only [hid.required (respects_eq _), hagent.required (respects_eq _),
      hhost.required (respects_eq _), hresources.required Resource.respects_ofJson?.list?]

theorem ofJson?_toJson {o : Offer} (h : ∀ r ∈ o.resources, r.amount.isFinite = true) :
    ofJson? o.toJson = some o := by
  have hslots : slots? ["id", "agent_id", "hostname", "resources"] o.toJson = _ :=
    slots?_fields rfl rfl (by decide)
  have hresources : list? Resource.ofJson? (.arr (o.resources.map Resource.toJson)) = _ :=
    list?_map fun r hr => Resource.ofJson?_toJson (h r hr)
  simp [ofJson?, hslots, Slot.required, string?, hresources]

end Offer

namespace ResourceRequest

def fields : Fields := [("cpus", Eq), ("mem", Eq)]

/-- Both amounts are numbers. -/
def Finite (r : ResourceRequest) : Prop := r.cpus.isFinite = true ∧ r.mem.isFinite = true

theorem respects_ofJson? : Respects ofJson? (RecordAlike fields) :=
  respects_record (fun _ => rfl) fun as bs h => by
    rcases h with _ | ⟨hcpus, _ | ⟨hmem, _ | _⟩⟩
    simp only [hcpus.required (respects_eq _), hmem.required (respects_eq _)]

theorem ofJson?_toJson {r : ResourceRequest} (h : r.Finite) : ofJson? r.toJson = some r := by
  have hslots : slots? ["cpus", "mem"] r.toJson = _ := slots?_fields rfl rfl (by decide)
  simp [ofJson?, hslots, Slot.required, float?_number h.1, float?_number h.2]

end ResourceRequest

namespace CommandSpec

def fields : Fields := [("uris", ListAlike Eq), ("value", Eq)]

theorem respects_ofJson? : Respects ofJson? (RecordAlike fields) :=
  respects_record (fun _ => rfl) fun as bs h => by
    rcases h with _ | ⟨huris, _ | ⟨hvalue, _ | _⟩⟩
    simp only [huris.required (respects_eq _).list?, hvalue.required (respects_eq _)]

theorem ofJson?_toJson (c : CommandSpec) : ofJson? c.toJson = some c := by
  have hslots : slots? ["uris", "value"] c.toJson = _ := slots?_fields rfl rfl (by decide)
  have huris : list? string? (ofTexts c.uris) = some c.uris := list?_map fun _ _ => rfl
  simp [ofJson?, hslots, Slot.required, string?, huris]

end CommandSpec

namespace Task

def fields : Fields :=
  [("id", Eq), ("name", Eq), ("agent_id", Eq), ("hostname", Eq),
   ("resources", RecordAlike ResourceRequest.fields), ("command", RecordAlike CommandSpec.fields)]

theorem respects_ofJson? : Respects ofJson? (RecordAlike fields) :=
  respects_record (fun _ => rfl) fun as bs h => by
    rcases h with _ | ⟨hid, _ | ⟨hname, _ | ⟨hagent, _ | ⟨hhost, _ | ⟨hresources, _ |
      ⟨hcommand, _ | _⟩⟩⟩⟩⟩⟩
    simp only [hid.required (respects_eq _), hname.required (respects_eq _),
      hagent.required (respects_eq _), hhost.required (respects_eq _),
      hresources.required ResourceRequest.respects_ofJson?,
      hcommand.required CommandSpec.respects_ofJson?]

theorem ofJson?_toJson {t : Task} (h : t.resources.Finite) : ofJson? t.toJson = some t := by
  have hslots : slots? ["id", "name", "agent_id", "hostname", "resources", "command"] t.toJson = _ :=
    slots?_fields rfl rfl (by decide)
  simp [ofJson?, hslots, Slot.required, string?, ResourceRequest.ofJson?_toJson h,
    CommandSpec.ofJson?_toJson]

end Task

theorem TaskState.ofJson?_toJson (s : TaskState) : ofJson? s.toJson = some s :=
  congrArg some (ofName_name s)

namespace TaskStatus

def fields : Fields :=
  [("task_id", Eq), ("state", Eq), ("agent_id", Eq), ("message", Eq), ("uuid", Eq)]

theorem respects_ofJson? : Respects ofJson? (RecordAlike fields) :=
  respects_record (fun _ => rfl) fun as bs h => by
    rcases h with _ | ⟨htask, _ | ⟨hstate, _ | ⟨hagent, _ | ⟨hmessage, _ | ⟨huuid, _ | _⟩⟩⟩⟩⟩
    simp only [htask.required (respects_eq _), hstate.required (respects_eq _),
      hagent.optional (respects_eq _), hmessage.optional (respects_eq _),
      huuid.optional (respects_eq _)]

theorem ofJson?_toJson (s : TaskStatus) : ofJson? s.toJson = some s := by
  have hslots : slots? ["task_id", "state", "agent_id", "message", "uuid"] s.toJson = _ :=
    slots?_fields rfl rfl (by decide)
  simp [ofJson?, hslots, Slot.required, Slot.optional, string?, TaskState.ofJson?_toJson,
    nullable?_ofText?]

end TaskStatus

namespace FrameworkInfo

def fields : Fields := [("name", Eq), ("user", Eq)]

theorem respects_ofJson? : Respects ofJson? (RecordAlike fields) :=
  respects_record (fun _ => rfl) fun as bs h => by
    rcases h with _ | ⟨hname, _ | ⟨huser, _ | _⟩⟩
    simp only [hname.required (respects_eq _), huser.required (respects_eq _)]

theorem ofJson?_toJson (f : FrameworkInfo) : ofJson? f.toJson = some f := by
  have hslots : slots? ["name", "user"] f.toJson = _ := slots?_fields rfl rfl (by decide)
  simp [ofJson?, hslots, Slot.required, string?]

/-! ### Settings -/

theorem respects_settingsOfJson? : Respects settingsOfJson? (RecordAlike fields) :=
  respects_record (fun _ => rfl) fun as bs h => by
    rcases h with _ | ⟨hname, _ | ⟨huser, _ | _⟩⟩
    simp only [hname.withDefault _ (respects_eq _), huser.withDefault _ (respects_eq _)]

/-- The settings with the defaults for those that are gone. -/
def without (gone : List String → Bool) (f : FrameworkInfo) : FrameworkInfo :=
  ⟨if gone ["name"] then default.name else f.name, if gone ["user"] then default.user else f.user⟩

theorem settingsOfJson?_leaveOut (gone : List String → Bool) (f : FrameworkInfo) :
    settingsOfJson? (f.toJson.leaveOut gone) = some (f.without gone) := by
  have hslots : slots? ["name", "user"] (f.toJson.leaveOut gone) = _ :=
    slots?_leaveOut gone rfl rfl (by decide)
  have hname : (slotWithout gone ("name", .str f.name)).withDefault default.name string? = _ :=
    withDefault_slotWithout rfl
  have huser : (slotWithout gone ("user", .str f.user)).withDefault default.user string? = _ :=
    withDefault_slotWithout rfl
  simp [settingsOfJson?, hslots, hname, huser, without]

end FrameworkInfo

namespace LaunchSettings

def fields : Fields := [("interval", Eq), ("script", Eq), ("interpreter", Eq)]

theorem respects_ofJson? : Respects ofJson? (RecordAlike fields) :=
  respects_record (fun _ => rfl) fun as bs h => by
    rcases h with _ | ⟨hinterval, _ | ⟨hscript, _ | ⟨hinterpreter, _ | _⟩⟩⟩
    simp only [hinterval.withDefault _ (respects_eq _), hscript.withDefault _ (respects_eq _),
      hinterpreter.withDefault _ (respects_eq _)]

/-- The settings with the defaults for those that are gone. -/
def without (gone : List String → Bool) (s : LaunchSettings) : LaunchSettings where
  interval := if gone ["interval"] then default.interval else s.interval
  script := if gone ["script"] then default.script else s.script
  interpreter := if gone ["interpreter"] then default.interpreter else s.interpreter

theorem ofJson?_leaveOut (gone : List String → Bool) (s : LaunchSettings) :
    ofJson? (s.toJson.leaveOut gone) = some (s.without gone) := by
  have hslots : slots? ["interval", "script", "interpreter"] (s.toJson.leaveOut gone) = _ :=
    slots?_leaveOut gone rfl rfl (by decide)
  have hinterval : (slotWithout gone ("interval", .str s.interval)).withDefault
      default.interval string? = _ := withDefault_slotWithout rfl
  have hscript : (slotWithout gone ("script", .str s.script)).withDefault
      default.script string? = _ := withDefault_slotWithout rfl
  have hinterpreter : (slotWithout gone ("interpreter", .str s.interpreter)).withDefault
      default.interpreter string? = _ := withDefault_slotWithout rfl
  simp [ofJson?, hslots, hinterval, hscript, hinterpreter, without]

end LaunchSettings

namespace OfferSettings

def fields : Fields := [("refuse_seconds", Eq)]

theorem respects_ofJson? : Respects ofJson? (RecordAlike fields) :=
  respects_record (fun _ => rfl) fun as bs h => by
    rcases h with _ | ⟨hrefuse, _ | _⟩
    simp only [hrefuse.withDefault _ (respects_eq _)]

/-- The settings with the default for what is gone. -/
def without (gone : List String → Bool) (s : OfferSettings) : OfferSettings :=
  ⟨if gone ["refuse_seconds"] then default.refuseSeconds else s.refuseSeconds⟩

theorem ofJson?_leaveOut (gone : List String → Bool) {s : OfferSettings}
    (h : s.refuseSeconds.isFinite = true) :
    ofJson? (s.toJson.leaveOut gone) = some (s.without gone) := by
  have hslots : slots? ["refuse_seconds"] (s.toJson.leaveOut gone) = _ :=
    slots?_leaveOut gone rfl rfl (by decide)
  have hread : float? ((Json.number s.refuseSeconds).leaveOut fun path =>
      gone ("refuse_seconds" :: path)) = some s.refuseSeconds := by
    rw [number, if_pos h]
    rfl
  have hrefuse : (slotWithout gone ("refuse_seconds", .number s.refuseSeconds)).withDefault
      default.refuseSeconds float? = _ := withDefault_slotWithout hread
  simp [ofJson?, hslots, hrefuse, without]

end OfferSettings

namespace WatchdogSettings

def fields : Fields := [("stall_timeout", Eq)]

theorem respects_ofJson? : Respects ofJson? (RecordAlike fields) :=
  respects_record (fun _ => rfl) fun as bs h => by
    rcases h with _ | ⟨htimeout, _ | _⟩
    simp only [htimeout.withDefault _ (respects_eq _)]

/-- The settings with the default for what is gone. -/
def without (gone : List String → Bool) (s : WatchdogSettings) : WatchdogSettings :=
  ⟨if gone ["stall_timeout"] then default.stallTimeout else s.stallTimeout⟩

theorem ofJson?_leaveOut (gone : List String → Bool) (s : WatchdogSettings) :
    ofJson? (s.toJson.leaveOut gone) = some (s.without gone) := by
  have hslots : slots? ["stall_timeout"] (s.toJson.leaveOut gone) = _ :=
    slots?_leaveOut gone rfl rfl (by decide)
  have htimeout : (slotWithout gone ("stall_timeout", .str s.stallTimeout)).withDefault
      default.stallTimeout string? = _ := withDefault_slotWithout rfl
  simp [ofJson?, hslots, htimeout, without]

end WatchdogSettings

namespace Config

def fields : Fields :=
  [("framework", RecordAlike FrameworkInfo.fields), ("launch", RecordAlike LaunchSettings.fields),
   ("offers", RecordAlike OfferSettings.fields), ("watchdog", RecordAlike WatchdogSettings.fields)]

theorem respects_ofJson? : Respects ofJson? (RecordAlike fields) :=
  respects_record (fun _ => rfl) fun as bs h => by
    rcases h with _ | ⟨hframework, _ | ⟨hlaunch, _ | ⟨hoffers, _ | ⟨hwatchdog, _ | _⟩⟩⟩⟩
    simp only [hframework.withDefault _ FrameworkInfo.respects_settingsOfJson?,
      hlaunch.withDefault _ LaunchSettings.respects_ofJson?,
      hoffers.withDefault _ OfferSettings.respects_ofJson?,
      hwatchdog.withDefault _ WatchdogSettings.respects_ofJson?]

/-- The configuration with the defaults for the sections that are gone, and for the settings that
are gone from the others. -/
def without (gone : List String → Bool) (c : Config) : Config where
  framework := if gone ["framework"] then .default
    else c.framework.without fun path => gone ("framework" :: path)
  launch := if gone ["launch"] then .default
    else c.launch.without fun path => gone ("launch" :: path)
  offers := if gone ["offers"] then .default
    else c.offers.without fun path => gone ("offers" :: path)
  watchdog := if gone ["watchdog"] then .default
    else c.watchdog.without fun path => gone ("watchdog" :: path)

theorem ofJson?_leaveOut (gone : List String → Bool) {c : Config}
    (h : c.offers.refuseSeconds.isFinite = true) :
    ofJson? (c.toJson.leaveOut gone) = some (c.without gone) := by
  have hslots : slots? ["framework", "launch", "offers", "watchdog"] (c.toJson.leaveOut gone) = _ :=
    slots?_leaveOut gone rfl rfl (by decide)
  have hframework : (slotWithout gone ("framework", c.framework.toJson)).withDefault
      .default FrameworkInfo.settingsOfJson? = _ :=
    withDefault_slotWithout (FrameworkInfo.settingsOfJson?_leaveOut _ _)
  have hlaunch : (slotWithout gone ("launch", c.launch.toJson)).withDefault
      .default LaunchSettings.ofJson? = _ :=
    withDefault_slotWithout (LaunchSettings.ofJson?_leaveOut _ _)
  have hoffers : (slotWithout gone ("offers", c.offers.toJson)).withDefault
      .default OfferSettings.ofJson? = _ :=
    withDefault_slotWithout (OfferSettings.ofJson?_leaveOut _ h)
  have hwatchdog : (slotWithout gone ("watchdog", c.watchdog.toJson)).withDefault
      .default WatchdogSettings.ofJson? = _ :=
    withDefault_slotWithout (WatchdogSettings.ofJson?_leaveOut _ _)
  simp [ofJson?, hslots, hframework, hlaunch, hoffers, hwatchdog, without]

theorem ofJson?_toJson {c : Config} (h : c.offers.refuseSeconds.isFinite = true) :
    ofJson? c.toJson = some c := by
  have hwhole := ofJson?_leaveOut (fun _ => false) h
  rw [leaveOut_nothing] at hwhole
  exact hwhole

end Config

/-- Offers, tasks, reports, configurations and their parts, as far as their amounts are numbers, are
read back from what they are written as and from all that is alike: their fields may be in another
order, with others among them, and arrays of the values in order may stand for objects, at any
depth. If parts of a configuration are left out before that, the defaults are read for these parts
and for no others. -/
theorem written_values_read_back :
    ReadsBack (·.amount.isFinite = true) Resource.toJson Resource.ofJson?
      (RecordAlike Resource.fields) ∧
    ReadsBack (∀ r ∈ ·.resources, r.amount.isFinite = true) Offer.toJson Offer.ofJson?
      (RecordAlike Offer.fields) ∧
    ReadsBack ResourceRequest.Finite ResourceRequest.toJson ResourceRequest.ofJson?
      (RecordAlike ResourceRequest.fields) ∧
    ReadsBack (fun _ => True) CommandSpec.toJson CommandSpec.ofJson?
      (RecordAlike CommandSpec.fields) ∧
    ReadsBack (·.resources.Finite) Task.toJson Task.ofJson? (RecordAlike Task.fields) ∧
    ReadsBack (fun _ => True) TaskState.toJson TaskState.ofJson? Eq ∧
    ReadsBack (fun _ => True) TaskStatus.toJson TaskStatus.ofJson?
      (RecordAlike TaskStatus.fields) ∧
    ReadsBack (fun _ => True) FrameworkInfo.toJson FrameworkInfo.ofJson?
      (RecordAlike FrameworkInfo.fields) ∧
    ReadsBack (·.offers.refuseSeconds.isFinite = true) Config.toJson Config.ofJson?
      (RecordAlike Config.fields) ∧
    ∀ (c : Config) (gone : List String → Bool), c.offers.refuseSeconds.isFinite = true →
      ∀ w, RecordAlike Config.fields (c.toJson.leaveOut gone) w →
        Config.ofJson? w = some (c.without gone) := by
  refine ⟨Resource.respects_ofJson?.readsBack fun _ => Resource.ofJson?_toJson,
    Offer.respects_ofJson?.readsBack fun _ => Offer.ofJson?_toJson,
    ResourceRequest.respects_ofJson?.readsBack fun _ => ResourceRequest.ofJson?_toJson,
    CommandSpec.respects_ofJson?.readsBack fun c _ => c.ofJson?_toJson,
    Task.respects_ofJson?.readsBack fun _ => Task.ofJson?_toJson,
    (respects_eq _).readsBack fun s _ => s.ofJson?_toJson,
    TaskStatus.respects_ofJson?.readsBack fun s _ => s.ofJson?_toJson,
    FrameworkInfo.respects_ofJson?.readsBack fun f _ => f.ofJson?_toJson,
    Config.respects_ofJson?.readsBack fun _ => Config.ofJson?_toJson, fun c gone h w hw => ?_⟩
  rw [← Config.respects_ofJson? hw, Config.ofJson?_leaveOut gone h]

/-- A configuration without a setting and without a section. The launch settings are an array, and
the other sections have changed places, with other members among them. -/
theorem written_values_read_back_rearranged :
    let c : Config := ⟨⟨"cni", "root"⟩, ⟨"1s", "cni.py", "sh"⟩, ⟨7⟩, ⟨"9m"⟩⟩
    let w : Json := .obj
      [("version", .int 2), ("offers", .arr [.float 7]),
       ("launch", .arr [.str "1s", .str "cni.py", .str "sh"]),
       ("framework", .obj [("note", .null), ("name", .str "cni")])]
    c.offers.refuseSeconds.isFinite = true ∧ Config.ofJson? w =
      some ⟨⟨"cni", ""⟩, ⟨"1s", "cni.py", "sh"⟩, ⟨7⟩, ⟨"5m"⟩⟩ := by
  intro c w
  let gone : List String → Bool := fun path => path == ["framework", "user"] || path == ["watchdog"]
  let name : List (String × Json) := [("name", .str "cni")]
  let note : List (String × Json) := [("note", .null)]
  have hfinite : c.offers.refuseSeconds.isFinite = true := by decide +kernel
  have hleft : c.toJson.leaveOut gone = .obj
      [("framework", .obj name),
       ("launch", .obj [("interval", .str "1s"), ("script", .str "cni.py"),
        ("interpreter", .str "sh")]),
       ("offers", .obj [("refuse_seconds", .float 7)])] := by
    have hnumber : Json.number 7 = .float 7 := if_pos hfinite
    simp [c, gone, name, Config.toJson, FrameworkInfo.toJson, LaunchSettings.toJson,
      OfferSettings.toJson, WatchdogSettings.toJson, leaveOut, leaveOutOf, hnumber]
  have hframework : RecordAlike FrameworkInfo.fields (.obj name) (.obj (note ++ name)) :=
    .of_reordered rfl (.cons ⟨rfl, by simp [FrameworkInfo.fields]⟩ .nil) List.perm_append_comm
      (by decide)
  have hlaunch : RecordAlike LaunchSettings.fields
      (.obj [("interval", .str "1s"), ("script", .str "cni.py"), ("interpreter", .str "sh")])
      (.arr [.str "1s", .str "cni.py", .str "sh"]) :=
    .listed (.cons ⟨_, rfl, rfl⟩ (.cons ⟨_, rfl, rfl⟩ (.cons ⟨_, rfl, rfl⟩ .nil)))
  have hoffers : RecordAlike OfferSettings.fields (.obj [("refuse_seconds", .float 7)])
      (.arr [.float 7]) := .listed (.cons ⟨_, rfl, rfl⟩ .nil)
  let changed : List (String × Json) := [("framework", .obj (note ++ name)),
    ("launch", .arr [.str "1s", .str "cni.py", .str "sh"]), ("offers", .arr [.float 7])]
  let version : List (String × Json) := [("version", .int 2)]
  have hmoved : (version ++ changed.reverse).Perm (changed ++ version) :=
    (changed.reverse_perm.append_left version).trans List.perm_append_comm
  have hlike : RecordAlike Config.fields (c.toJson.leaveOut gone)
      (.obj (version ++ changed.reverse)) := by
    rw [hleft]
    refine .of_reordered rfl ?_ hmoved (by decide)
    refine .cons ⟨rfl, ?_⟩ (.cons ⟨rfl, ?_⟩ (.cons ⟨rfl, ?_⟩ .nil))
    · simpa [Config.fields] using hframework
    · simpa [Config.fields] using hlaunch
    · simpa [Config.fields] using hoffers
  obtain ⟨-, -, -, -, -, -, -, -, -, hleaveOut⟩ := written_values_read_back
  exact ⟨hfinite, hleaveOut c gone hfinite w hlike⟩

end Rollout
