import Mathlib.Data.List.Forall2
import Mathlib.Data.List.ReduceOption
import Rollout.Proofs.Sections

/-!
What a message means.

The event that a message is says what its section says, read off the fields wherever they stand: an
offer for each offer that is listed, with the resources that are plain amounts; a report with the
details that are there. A message without the section of its type, or of a type that has none, is no
event.
-/
namespace Rollout

open Relator

namespace Json

variable {α : Type} {read : Json → Option α} {tells : Json → α → Prop} {fs : Fields}
  {v : Json} {a : α} {o : Option α} {slot : Slot} {slots : List Slot} {names : List String}

/-- What a record has for a field: under its name in an object, at its place in an array. -/
def Fields.at? (fs : Fields) (name : String) : Json → Option Json
  | .obj members => members.lookup name
  | .arr items => (fs.names.zip items).lookup name
  | _ => none

def Slot.value? : Slot → Option Json
  | .given v => some v
  | _ => none

theorem value?_ofNamed (name : String) (ms : List (String × Json)) :
    (Slot.ofNamed name ms).value? = ms.lookup name := by
  rw [Slot.ofNamed]
  cases ms.lookup name <;> rfl

theorem map_value?_ofPlaces (hnames : names.Nodup) (items : List Json) :
    (Slot.ofPlaces names items).map Slot.value? = names.map ((names.zip items).lookup ·) := by
  induction names generalizing items with
  | nil => rfl
  | cons name names ih =>
    obtain ⟨hfirst, hrest⟩ := List.nodup_cons.1 hnames
    cases items with
    | nil => simp [Slot.ofPlaces, Slot.value?, ih hrest]
    | cons v items =>
      -- the fields behind the first have other names and so are not found at its place
      have hbehind : ∀ other ∈ names,
          (((name, v) :: names.zip items).lookup other) = (names.zip items).lookup other := by
        intro other hother
        have hne : other ≠ name := fun heq => hfirst (heq ▸ hother)
        rw [List.lookup_cons, beq_false_of_ne hne]
      simp [Slot.ofPlaces, Slot.value?, ih hrest, List.map_congr_left hbehind]

theorem Fields.values_of_slots? (fs : Fields) (hnames : fs.names.Nodup)
    (h : slots? fs.names v = some slots) :
    List.Forall₂ (fun name slot => fs.at? name v = slot.value?) fs.names slots := by
  have hmap : fs.names.map (fs.at? · v) = slots.map Slot.value? := by
    cases v with
    | obj ms =>
      simp only [slots?, Option.ite_none_right_eq_some, Option.some.injEq] at h
      obtain ⟨-, rfl⟩ := h
      rw [List.map_map]
      exact List.map_congr_left fun name _ => (value?_ofNamed name ms).symm
    | arr items =>
      simp only [slots?, Option.ite_none_right_eq_some, Option.some.injEq] at h
      obtain ⟨-, rfl⟩ := h
      exact (map_value?_ofPlaces hnames items).symm
    | _ => cases h
  rwa [← List.forall₂_eq_eq_eq, List.forall₂_map_left_iff, List.forall₂_map_right_iff] at hmap

/-- What is told of a value that has to be there. -/
def Given (tells : Json → α → Prop) (found : Option Json) (a : α) : Prop :=
  ∃ v, found = some v ∧ tells v a

/-- What is told of a value that may be left out, or null. -/
inductive Optionally (tells : Json → α → Prop) : Option Json → Option α → Prop where
  | absent : Optionally tells none none
  | null : Optionally tells (some .null) none
  | present {v : Json} {a : α} (h : tells v a) : Optionally tells (some v) (some a)

theorem Optionally.map {β : Type} {tells' : Json → β → Prop} {f : α → β} {found : Option Json}
    (h : Optionally tells found o) (hmap : ∀ v a, tells v a → tells' v (f a)) :
    Optionally tells' found (o.map f) := by
  cases h with
  | absent => exact .absent
  | null => exact .null
  | present h => exact .present (hmap _ _ h)

theorem required_eq_some_iff :
    slot.required read = some a ↔ Given (read · = some ·) slot.value? a := by
  cases slot <;> simp [Slot.required, Slot.value?, Given]

theorem given_of_required (htells : ∀ v a, read v = some a → tells v a)
    (h : slot.required read = some a) : Given tells slot.value? a := by
  obtain ⟨v, hv, hread⟩ := required_eq_some_iff.1 h
  exact ⟨v, hv, htells v a hread⟩

theorem string?_eq_some_iff {text : String} : string? v = some text ↔ v = .str text := by
  cases v <;> simp [string?]

theorem text_of_required {text : String} (h : slot.required string? = some text) :
    slot.value? = some (.str text) := by
  obtain ⟨v, hv, hread⟩ := required_eq_some_iff.1 h
  rwa [string?_eq_some_iff.1 hread] at hv

theorem forall₂_of_mapM {vs : List Json} {as : List α} (h : vs.mapM read = some as) :
    List.Forall₂ (fun v a => read v = some a) vs as := by
  induction vs generalizing as with
  | nil =>
    cases h
    exact .nil
  | cons v vs ih =>
    rw [List.mapM_cons] at h
    obtain ⟨a, hfirst, h⟩ := Option.bind_eq_some_iff.1 h
    obtain ⟨rest, hrest, h⟩ := Option.bind_eq_some_iff.1 h
    cases h
    exact .cons hfirst (ih hrest)

/-- The items of a list that may be left out. -/
inductive Items : Option Json → List Json → Prop where
  | absent : Items none []
  | present (items : List Json) : Items (some (.arr items)) items

theorem exists_items {as : List α} (h : slot.withDefault [] (list? read) = some as) :
    ∃ items, Items slot.value? items ∧ List.Forall₂ (fun v a => read v = some a) items as := by
  cases slot with
  | given v =>
    cases v with
    | arr items => exact ⟨items, .present items, forall₂_of_mapM h⟩
    | _ => cases h
  | unnamed | cutOff =>
    cases h
    exact ⟨[], .absent, .nil⟩

theorem optionally_of_nullable? (htells : ∀ v a, read v = some a → tells v a)
    (h : nullable? read v = some o) : Optionally tells (some v) o := by
  by_cases hnull : v = .null
  · subst hnull
    cases h
    exact .null
  · rw [nullable?_of_ne_null read hnull, Option.map_eq_some_iff] at h
    obtain ⟨a, hread, rfl⟩ := h
    exact .present (htells v a hread)

theorem optionally_of_optional (htells : ∀ v a, read v = some a → tells v a)
    (h : slot.optional read = some o) : Optionally tells slot.value? o := by
  cases slot with
  | given v => exact optionally_of_nullable? htells h
  | unnamed =>
    cases h
    exact .absent
  | cutOff => cases h

theorem optionally_of_withDefault (htells : ∀ v a, read v = some a → tells v a)
    (h : slot.withDefault none (nullable? read) = some o) : Optionally tells slot.value? o := by
  cases slot with
  | given v => exact optionally_of_nullable? htells h
  | unnamed | cutOff =>
    cases h
    exact .absent

/-! ### What a value says is one thing -/

theorem rightUnique_given (h : RightUnique tells) : RightUnique (Given tells) := by
  rintro found a b ⟨v, hv, ha⟩ ⟨w, hw, hb⟩
  rw [Option.some.inj (hw.symm.trans hv)] at hb
  exact h ha hb

theorem rightUnique_optionally (h : RightUnique tells) (hnull : ∀ a, ¬ tells .null a) :
    RightUnique (Optionally tells) := by
  intro found a b ha hb
  cases ha with
  | absent =>
    cases hb
    rfl
  | null =>
    cases hb with
    | null => rfl
    | present hb => exact absurd hb (hnull _)
  | present ha =>
    cases hb with
    | null => exact absurd ha (hnull _)
    | present hb => rw [h ha hb]

theorem rightUnique_items : RightUnique Items := by
  intro found vs ws hvs hws
  cases hvs <;> cases hws <;> rfl

theorem rightUnique_names : RightUnique Names := by
  rintro v a b (rfl | rfl) (hb | hb)
  · exact Json.str.inj hb
  · cases hb
  · cases hb
  · cases hb
    rfl

end Json

namespace Master

open Json

variable {v w : Json}

/-! ### What a section says -/

/-- An identifier is the text in the one field of a record. -/
def Identifies (v : Json) (id : String) : Prop := idFields.at? "value" v = some (.str id)

theorem identifies_of_id? {id : String} (h : id? v = some id) : Identifies v id := by
  obtain ⟨slots, hslots, h⟩ := Option.bind_eq_some_iff.1 h
  rcases idFields.values_of_slots? (by decide) hslots with _ | ⟨hvalue, _ | _⟩
  exact hvalue.trans (text_of_required h)

/-- An amount is the number in the one field of a record. -/
def Measures (v : Json) (x : Float) : Prop :=
  Given (float? · = some ·) (scalarFields.at? "value" v) x

theorem measures_of_scalar? {x : Float} (h : scalar? v = some x) : Measures v x := by
  obtain ⟨slots, hslots, h⟩ := Option.bind_eq_some_iff.1 h
  rcases scalarFields.values_of_slots? (by decide) hslots with _ | ⟨hvalue, _ | _⟩
  rw [Measures, hvalue]
  exact required_eq_some_iff.1 h

/-- A listed resource is a plain amount if there is one under its name. -/
def TellsResource (v : Json) : Option Resource → Prop :=
  Optionally (fun w r => OfferedResource.fields.at? "name" v = some (.str r.name) ∧
    Measures w r.amount) (OfferedResource.fields.at? "scalar" v)

theorem tellsResource_of_ofJson? {r : OfferedResource} (h : OfferedResource.ofJson? v = some r) :
    TellsResource v (r.scalar.map (⟨r.name, ·⟩)) := by
  obtain ⟨slots, hslots, h⟩ := Option.bind_eq_some_iff.1 h
  rcases OfferedResource.fields.values_of_slots? (by decide) hslots with
    _ | ⟨hname, _ | ⟨-, _ | ⟨hscalar, _ | _⟩⟩⟩
  obtain ⟨name, hreadName, h⟩ := Option.bind_eq_some_iff.1 h
  obtain ⟨kind, -, h⟩ := Option.bind_eq_some_iff.1 h
  obtain ⟨scalar, hreadScalar, h⟩ := Option.bind_eq_some_iff.1 h
  cases h
  rw [TellsResource, hscalar]
  exact (optionally_of_withDefault (fun _ _ => measures_of_scalar?) hreadScalar).map
    fun _ _ hamount => ⟨hname.trans (text_of_required hreadName), hamount⟩

/-- What a listed offer says. -/
structure DescribesOffer (v : Json) (o : Offer) : Prop where
  id : Given Identifies (OfferDescription.fields.at? "id" v) o.id
  agent : Given Identifies (OfferDescription.fields.at? "agent_id" v) o.agentId
  host : OfferDescription.fields.at? "hostname" v = some (.str o.hostname)
  resources : ∃ items found, Items (OfferDescription.fields.at? "resources" v) items ∧
    List.Forall₂ TellsResource items found ∧ o.resources = found.reduceOption

theorem describesOffer_of_ofJson? {o : OfferDescription} (h : OfferDescription.ofJson? v = some o) :
    DescribesOffer v o.offer := by
  obtain ⟨slots, hslots, h⟩ := Option.bind_eq_some_iff.1 h
  rcases OfferDescription.fields.values_of_slots? (by decide) hslots with
    _ | ⟨hid, _ | ⟨hagent, _ | ⟨hhost, _ | ⟨hresources, _ | _⟩⟩⟩⟩
  obtain ⟨id, hreadId, h⟩ := Option.bind_eq_some_iff.1 h
  obtain ⟨agent, hreadAgent, h⟩ := Option.bind_eq_some_iff.1 h
  obtain ⟨host, hreadHost, h⟩ := Option.bind_eq_some_iff.1 h
  obtain ⟨resources, hreadResources, h⟩ := Option.bind_eq_some_iff.1 h
  cases h
  constructor
  · rw [hid]
    exact given_of_required (fun _ _ => identifies_of_id?) hreadId
  · rw [hagent]
    exact given_of_required (fun _ _ => identifies_of_id?) hreadAgent
  · exact hhost.trans (text_of_required hreadHost)
  · obtain ⟨items, hitems, hread⟩ := exists_items hreadResources
    rw [hresources]
    refine ⟨items, _, hitems,
      List.forall₂_map_right_iff.2 (hread.imp fun _ _ => tellsResource_of_ofJson?), ?_⟩
    rw [List.reduceOption, List.filterMap_map]
    rfl

/-- A state is given by its name; names that are not listed are all the unknown state. -/
def NamesState (v : Json) (state : TaskState) : Prop :=
  ∃ name, Names v name ∧
    (state.name = name ∨ (state = .unknown ∧ ∀ t : TaskState, t.name ≠ name))

theorem namesState_of_ofJson? {state : TaskState} (h : TaskState.ofJson? v = some state) :
    NamesState v state := by
  obtain ⟨name, hname, rfl⟩ := Option.map_eq_some_iff.1 h
  refine ⟨name, choice?_eq_some_iff.1 hname, ?_⟩
  by_cases hlisted : ∃ t : TaskState, t.name = name
  · obtain ⟨t, rfl⟩ := hlisted
    rw [TaskState.ofName_name]
    exact .inl rfl
  · refine .inr ⟨?_, fun t ht => hlisted ⟨t, ht⟩⟩
    have hnone : TaskState.all.find? (fun t => t.name == name) = none :=
      List.find?_eq_none.2 fun t _ ht => hlisted ⟨t, eq_of_beq ht⟩
    rw [TaskState.ofName, hnone]
    rfl

/-- What the report on a task says. -/
structure DescribesStatus (v : Json) (s : TaskStatus) : Prop where
  task : Given Identifies (statusFields.at? "task_id" v) s.taskId
  state : Given NamesState (statusFields.at? "state" v) s.state
  agent : Optionally Identifies (statusFields.at? "agent_id" v) s.agentId
  message : Optionally (· = .str ·) (statusFields.at? "message" v) s.message
  uuid : Optionally (· = .str ·) (statusFields.at? "uuid" v) s.uuid

theorem describesStatus_of_status? {s : TaskStatus} (h : status? v = some s) :
    DescribesStatus v s := by
  obtain ⟨slots, hslots, h⟩ := Option.bind_eq_some_iff.1 h
  rcases statusFields.values_of_slots? (by decide) hslots with
    _ | ⟨htask, _ | ⟨hstate, _ | ⟨hagent, _ | ⟨hmessage, _ | ⟨huuid, _ | _⟩⟩⟩⟩⟩
  obtain ⟨task, hreadTask, h⟩ := Option.bind_eq_some_iff.1 h
  obtain ⟨state, hreadState, h⟩ := Option.bind_eq_some_iff.1 h
  obtain ⟨agent, hreadAgent, h⟩ := Option.bind_eq_some_iff.1 h
  obtain ⟨message, hreadMessage, h⟩ := Option.bind_eq_some_iff.1 h
  obtain ⟨uuid, hreadUuid, h⟩ := Option.bind_eq_some_iff.1 h
  cases h
  constructor
  · rw [htask]
    exact given_of_required (fun _ _ => identifies_of_id?) hreadTask
  · rw [hstate]
    exact given_of_required (fun _ _ => namesState_of_ofJson?) hreadState
  · rw [hagent]
    exact optionally_of_optional (fun _ _ => identifies_of_id?) hreadAgent
  · rw [hmessage]
    exact optionally_of_optional (fun _ _ => string?_eq_some_iff.1) hreadMessage
  · rw [huuid]
    exact optionally_of_optional (fun _ _ => string?_eq_some_iff.1) hreadUuid

/-- The event that a section describes. -/
inductive Describes : Section → Json → Event → Prop where
  | subscribed {v : Json} {framework : FrameworkId}
      (h : Given Identifies (Subscribed.fields.at? "framework_id" v) framework) :
      Describes .subscribed v (.registered framework)
  | offers {v : Json} {items : List Json} {batch : List Offer}
      (hitems : Items (offersFields.at? "offers" v) items)
      (hbatch : List.Forall₂ DescribesOffer items batch) : Describes .offers v (.offers batch)
  | rescind {v : Json} {offer : OfferId}
      (h : Given Identifies (rescindFields.at? "offer_id" v) offer) :
      Describes .rescind v (.rescinded offer)
  | update {v : Json} {status : TaskStatus}
      (h : Given DescribesStatus (updateFields.at? "status" v) status) :
      Describes .update v (.status status)
  | error {v : Json} {text : String} (h : errorFields.at? "message" v = some (.str text)) :
      Describes .error v (.error text)

theorem describes_subscribed {c : Subscribed} (h : Subscribed.ofJson? v = some c) :
    Describes .subscribed v (.registered c.framework) := by
  obtain ⟨slots, hslots, h⟩ := Option.bind_eq_some_iff.1 h
  rcases Subscribed.fields.values_of_slots? (by decide) hslots with
    _ | ⟨hframework, _ | ⟨-, _ | _⟩⟩
  obtain ⟨framework, hread, h⟩ := Option.bind_eq_some_iff.1 h
  obtain ⟨heartbeat, -, h⟩ := Option.bind_eq_some_iff.1 h
  cases h
  refine .subscribed ?_
  rw [hframework]
  exact given_of_required (fun _ _ => identifies_of_id?) hread

theorem describes_offers {os : List OfferDescription} (h : offers? v = some os) :
    Describes .offers v (.offers (os.map OfferDescription.offer)) := by
  obtain ⟨slots, hslots, h⟩ := Option.bind_eq_some_iff.1 h
  rcases offersFields.values_of_slots? (by decide) hslots with _ | ⟨hoffers, _ | _⟩
  obtain ⟨items, hitems, hread⟩ := exists_items h
  rw [← hoffers] at hitems
  have hbatch : List.Forall₂ DescribesOffer items (os.map OfferDescription.offer) :=
    List.forall₂_map_right_iff.2 (hread.imp fun _ _ => describesOffer_of_ofJson?)
  exact .offers hitems hbatch

theorem describes_rescind {id : OfferId} (h : rescind? v = some id) :
    Describes .rescind v (.rescinded id) := by
  obtain ⟨slots, hslots, h⟩ := Option.bind_eq_some_iff.1 h
  rcases rescindFields.values_of_slots? (by decide) hslots with _ | ⟨hoffer, _ | _⟩
  refine .rescind ?_
  rw [hoffer]
  exact given_of_required (fun _ _ => identifies_of_id?) h

theorem describes_update {status : TaskStatus} (h : update? v = some status) :
    Describes .update v (.status status) := by
  obtain ⟨slots, hslots, h⟩ := Option.bind_eq_some_iff.1 h
  rcases updateFields.values_of_slots? (by decide) hslots with _ | ⟨hstatus, _ | _⟩
  refine .update ?_
  rw [hstatus]
  exact given_of_required (fun _ _ => describesStatus_of_status?) h

theorem describes_error {text : String} (h : error? v = some text) :
    Describes .error v (.error text) := by
  obtain ⟨slots, hslots, h⟩ := Option.bind_eq_some_iff.1 h
  rcases errorFields.values_of_slots? (by decide) hslots with _ | ⟨hmessage, _ | _⟩
  exact .error (hmessage.trans (text_of_required h))

/-! ### One event for one section -/

theorem rightUnique_identifies : RightUnique Identifies := by
  intro v a b ha hb
  exact Json.str.inj (Option.some.inj (ha.symm.trans hb))

theorem rightUnique_measures : RightUnique Measures := by
  intro v x y hx hy
  have hread : RightUnique (float? · = some ·) :=
    fun _ _ _ ha hb => Option.some.inj (ha.symm.trans hb)
  exact rightUnique_given hread hx hy

theorem rightUnique_tellsResource : RightUnique TellsResource := by
  intro v o o' ho ho'
  refine rightUnique_optionally ?_ ?_ ho ho'
  · rintro w r r' ⟨hname, hamount⟩ ⟨hname', hamount'⟩
    have hnames : r.name = r'.name := Json.str.inj (Option.some.inj (hname.symm.trans hname'))
    have hamounts : r.amount = r'.amount := rightUnique_measures hamount hamount'
    cases r
    cases r'
    cases hnames
    cases hamounts
    rfl
  · rintro r ⟨-, w, hw, -⟩
    cases hw

theorem rightUnique_describesOffer : RightUnique DescribesOffer := by
  rintro v o o' h h'
  obtain ⟨items, found, hitems, hfound, hresources⟩ := h.resources
  obtain ⟨items', found', hitems', hfound', hresources'⟩ := h'.resources
  have hid : o.id = o'.id := rightUnique_given rightUnique_identifies h.id h'.id
  have hagent : o.agentId = o'.agentId := rightUnique_given rightUnique_identifies h.agent h'.agent
  have hhost : o.hostname = o'.hostname :=
    Json.str.inj (Option.some.inj (h.host.symm.trans h'.host))
  rw [rightUnique_items hitems' hitems] at hfound'
  rw [rightUnique_tellsResource.forall₂ hfound' hfound, ← hresources] at hresources'
  cases o
  cases o'
  simp_all

theorem TaskState.name_injective : Function.Injective TaskState.name :=
  Function.LeftInverse.injective TaskState.ofName_name

theorem rightUnique_namesState : RightUnique NamesState := by
  rintro v a b ⟨name, hname, ha⟩ ⟨name', hname', hb⟩
  rw [rightUnique_names hname' hname] at hb
  rcases ha with ha | ⟨rfl, hnone⟩
  · rcases hb with hb | ⟨-, hnone⟩
    · exact TaskState.name_injective (ha.trans hb.symm)
    · exact absurd ha (hnone a)
  · rcases hb with hb | ⟨rfl, -⟩
    · exact absurd hb (hnone b)
    · rfl

theorem rightUnique_describesStatus : RightUnique DescribesStatus := by
  have hidentifies : RightUnique (Optionally Identifies) :=
    rightUnique_optionally rightUnique_identifies nofun
  have htext : RightUnique (Optionally (· = Json.str ·)) :=
    rightUnique_optionally (fun _ _ _ ha hb => Json.str.inj (ha.symm.trans hb)) nofun
  intro v s s' h h'
  have htask : s.taskId = s'.taskId := rightUnique_given rightUnique_identifies h.task h'.task
  have hstate : s.state = s'.state := rightUnique_given rightUnique_namesState h.state h'.state
  have hagent : s.agentId = s'.agentId := hidentifies h.agent h'.agent
  have hmessage : s.message = s'.message := htext h.message h'.message
  have huuid : s.uuid = s'.uuid := htext h.uuid h'.uuid
  cases s
  cases s'
  simp_all

theorem rightUnique_describes (s : Section) : RightUnique (Describes s) := by
  intro v e e' h h'
  cases h with
  | subscribed h =>
    cases h' with
    | subscribed h' => rw [rightUnique_given rightUnique_identifies h h']
  | offers hitems hbatch =>
    cases h' with
    | offers hitems' hbatch' =>
      rw [rightUnique_items hitems' hitems] at hbatch'
      rw [rightUnique_describesOffer.forall₂ hbatch hbatch']
  | rescind h =>
    cases h' with
    | rescind h' => rw [rightUnique_given rightUnique_identifies h h']
  | update h =>
    cases h' with
    | update h' => rw [rightUnique_given rightUnique_describesStatus h h']
  | error h =>
    cases h' with
    | error h' => rw [Json.str.inj (Option.some.inj (h.symm.trans h'))]

/-! ### The event of a message -/

theorem Section.ne_failure_of_ofType? {type : String} {s : Section}
    (h : Section.ofType? type = some s) : s ≠ .failure := by
  obtain ⟨before, behind, heq, -⟩ := List.lookup_eq_some_iff.1 h
  have hmem : (type, s) ∈ ofTypes := by
    rw [heq]
    exact List.mem_append_right _ List.mem_cons_self
  have hall : ∀ p ∈ ofTypes, p.2 ≠ .failure := by decide
  exact hall _ hmem

/-- In a message of its own type a section that can be read is the event that it describes. -/
theorem Section.exists_event {s : Section} {c : s.Content} (hs : s ≠ .failure)
    (h : s.read? v = some c) : ∃ e, s.event? c = some e ∧ Describes s v e := by
  cases s with
  | subscribed => exact ⟨_, rfl, describes_subscribed h⟩
  | offers => exact ⟨_, rfl, describes_offers h⟩
  | rescind => exact ⟨_, rfl, describes_rescind h⟩
  | update => exact ⟨_, rfl, describes_update h⟩
  | failure => exact absurd rfl hs
  | error => exact ⟨_, rfl, describes_error h⟩

namespace Message

variable {m : Message} {ms : List (String × Json)}

/-- Only its type and the section of this type decide which event a message is. It is the one that
the section describes, and it is none if the type has no such section or the message lacks it. -/
theorem event_from_own_section (h : ofJson? (.obj ms) = some m) :
    ∃ v type, ms.lookup "type" = some v ∧ Names v type ∧
      (∀ ns, AgreeOn type ms ns → ∃ m', ofJson? (.obj ns) = some m' ∧ m'.event? = m.event?) ∧
      (∀ s w, Section.ofType? type = some s → ms.lookup s.name = some w → w ≠ .null →
        m.event?.isSome ∧ ∀ e, m.event? = some e ↔ Describes s w e) ∧
      ((∀ s w, Section.ofType? type = some s → ms.lookup s.name = some w → w = .null) →
        m.event? = none) := by
  obtain ⟨-, htype, hsections⟩ := ofJson?_obj_eq_some_iff.1 h
  obtain ⟨v, hv, hkind⟩ := required_eq_some_iff.1 htype
  obtain ⟨type, hname, hkind⟩ := Option.map_eq_some_iff.1 hkind
  rw [value?_ofNamed] at hv
  have hevent : m.event? = (Section.ofType? type).bind fun s => (m.content s).bind s.event? := by
    rw [event?_eq, ← hkind, Kind.source?_ofName]
  refine ⟨v, type, hv, choice?_eq_some_iff.1 hname, fun ns => exists_of_agreeOn h hkind,
    fun s w hs hw hnull => ?_, fun hnull => ?_⟩
  · have hsection := hsections s
    rw [Slot.ofNamed, hw] at hsection
    obtain ⟨c, hread, hcontent⟩ :=
      Option.map_eq_some_iff.1 ((nullable?_of_ne_null s.read? hnull).symm.trans hsection)
    obtain ⟨e, he, hdescribes⟩ := Section.exists_event (Section.ne_failure_of_ofType? hs) hread
    have hsome : m.event? = some e := by
      rw [hevent, hs, Option.bind_some, ← hcontent]
      exact he
    refine ⟨hsome ▸ rfl, fun e' => ⟨fun he' => ?_, fun he' => ?_⟩⟩
    · rwa [← Option.some.inj (hsome.symm.trans he')]
    · rw [hsome, rightUnique_describes s hdescribes he']
  · rw [hevent]
    cases hs : Section.ofType? type with
    | none => rfl
    | some s =>
      have hsection := hsections s
      rw [Slot.ofNamed] at hsection
      have hcontent : m.content s = none := by
        cases hw : ms.lookup s.name with
        | none =>
          rw [hw] at hsection
          exact (Option.some.inj hsection).symm
        | some w =>
          rw [hw, hnull s w hs hw] at hsection
          exact (Option.some.inj hsection).symm
      rw [Option.bind_some, hcontent]
      rfl

/-- An offer of ports and of four processors is told once more by arrays, with a member that offers
do not have. There is another section in that message too. -/
theorem event_from_own_section_retold :
    let cpus : Json := .obj [("name", .str "cpus"), ("type", .str "SCALAR"),
      ("scalar", .obj [("value", .float 4)])]
    let ports : Json := .obj [("name", .str "ports"), ("type", .str "RANGES")]
    let offer : List (String × Json) := [("id", .obj [("value", .str "o1")]),
      ("agent_id", .obj [("value", .str "a1")]), ("hostname", .str "h1"),
      ("resources", .arr [ports, cpus])]
    let domain : List (String × Json) := [("domain", .null)]
    let listed : Json := .obj [("offers", .arr [.obj offer])]
    let retold : Json := .arr [.arr [.obj (domain ++ offer)]]
    let ms : List (String × Json) := [("type", .str "OFFERS"), ("offers", listed)]
    let ns : List (String × Json) := [("error", .obj [("message", .str "e")]), ("offers", retold),
      ("note", .int 1), ("type", .obj [("OFFERS", .null)])]
    let e : Event := .offers [⟨"o1", "a1", "h1", [⟨"cpus", 4⟩]⟩]
    ∃ m m', ofJson? (.obj ms) = some m ∧ ofJson? (.obj ns) = some m' ∧ m.event? = some e ∧
      m'.event? = some e ∧ Describes .offers listed e := by
  intro cpus ports offer domain listed retold ms ns e
  let m : Message := ⟨.offers, none, some [⟨"o1", "a1", "h1",
    [⟨"ports", "RANGES", none⟩, ⟨"cpus", "SCALAR", some 4⟩]⟩], none, none, none, none⟩
  have h : ofJson? (.obj ms) = some m := rfl
  have hevent : m.event? = some e := rfl
  obtain ⟨v, type, hv, hname, hsame, hmeans, -⟩ := event_from_own_section h
  obtain rfl : type = "OFFERS" := by
    cases hv
    exact rightUnique_names hname (.inl rfl)
  have hrefl : ∀ f ∈ OfferDescription.fields, ∀ v, f.2 v v := by
    simpa [OfferDescription.fields] using ⟨RecordAlike.same, ListAlike.same⟩
  have hoffer : RecordAlike OfferDescription.fields (.obj offer) (.obj (domain ++ offer)) :=
    .of_reordered rfl (.refl hrefl offer) List.perm_append_comm (by decide)
  have hsection : RecordAlike offersFields listed retold :=
    .listed (.cons ⟨_, rfl, .items (.cons hoffer .nil)⟩ .nil)
  have hagree : AgreeOn "OFFERS" ms ns := by
    refine ⟨⟨_, rfl, .inr rfl⟩, fun s hs => ?_, fun s hs => ?_⟩
    · obtain rfl : .offers = s := Option.some.inj hs
      exact .cons hsection .nil
    · cases s with
      | offers => exact absurd rfl hs
      | error => exact .inr ⟨_, some "e", rfl, rfl⟩
      | subscribed | rescind | update | failure => exact .inl rfl
  obtain ⟨m', hm', hevent'⟩ := hsame ns hagree
  exact ⟨m, m', h, hm', hevent, hevent'.trans hevent,
    ((hmeans .offers listed rfl rfl nofun).2 e).1 hevent⟩

end Message

end Master

end Rollout
