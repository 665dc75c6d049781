import Mathlib.Data.List.Forall2
import Rollout.Master.Message
import Rollout.Proofs.Likeness

/-!
Which parts of a message matter.

A message takes its event from the section of its type, if that is one of five types. So a message
of that type with an alike section is the same event, whatever its other members are, as long as it
is a message at all: members that are no sections, the order of the members, and the other sections
make no difference.
-/
namespace Rollout

namespace Json

/-- A choice is written as a string or as an object of its name and null. -/
def Names (v : Json) (name : String) : Prop := v = .str name ∨ v = .obj [(name, .null)]

theorem choice?_eq_some_iff {v : Json} {name : String} : choice? v = some name ↔ Names v name := by
  constructor
  · intro h
    unfold choice? at h
    split at h <;> cases h
    · exact .inl rfl
    · exact .inr rfl
  · rintro (rfl | rfl) <;> rfl

end Json

namespace Master

open Json

/-! ### What is alike in a message -/

def idFields : Fields := [("value", Eq)]

theorem respects_id? : Respects id? (RecordAlike idFields) :=
  respects_record (fun _ => rfl) fun as bs h => by
    rcases h with _ | ⟨hvalue, _ | _⟩
    simp only [hvalue.required (respects_eq _)]

def scalarFields : Fields := [("value", Eq)]

theorem respects_scalar? : Respects scalar? (RecordAlike scalarFields) :=
  respects_record (fun _ => rfl) fun as bs h => by
    rcases h with _ | ⟨hvalue, _ | _⟩
    simp only [hvalue.required (respects_eq _)]

def Subscribed.fields : Fields :=
  [("framework_id", RecordAlike idFields), ("heartbeat_interval_seconds", Eq)]

theorem Subscribed.respects_ofJson? : Respects ofJson? (RecordAlike fields) :=
  respects_record (fun _ => rfl) fun as bs h => by
    rcases h with _ | ⟨hframework, _ | ⟨hheartbeat, _ | _⟩⟩
    simp only [hframework.required respects_id?, hheartbeat.optional (respects_eq _)]

def OfferedResource.fields : Fields :=
  [("name", Eq), ("type", Eq), ("scalar", RecordAlike scalarFields)]

theorem OfferedResource.respects_ofJson? : Respects ofJson? (RecordAlike fields) :=
  respects_record (fun _ => rfl) fun as bs h => by
    rcases h with _ | ⟨hname, _ | ⟨hkind, _ | ⟨hscalar, _ | _⟩⟩⟩
    simp only [hname.required (respects_eq _), hkind.required (respects_eq _),
      hscalar.withDefault _ respects_scalar?.nullable?]

def OfferDescription.fields : Fields :=
  [("id", RecordAlike idFields), ("agent_id", RecordAlike idFields), ("hostname", Eq),
   ("resources", ListAlike (RecordAlike OfferedResource.fields))]

theorem OfferDescription.respects_ofJson? : Respects ofJson? (RecordAlike fields) :=
  respects_record (fun _ => rfl) fun as bs h => by
    rcases h with _ | ⟨hid, _ | ⟨hagent, _ | ⟨hhost, _ | ⟨hresources, _ | _⟩⟩⟩⟩
    simp only [hid.required respects_id?, hagent.required respects_id?,
      hhost.required (respects_eq _),
      hresources.withDefault _ OfferedResource.respects_ofJson?.list?]

def offersFields : Fields := [("offers", ListAlike (RecordAlike OfferDescription.fields))]

theorem respects_offers? : Respects offers? (RecordAlike offersFields) :=
  respects_record (fun _ => rfl) fun as bs h => by
    rcases h with _ | ⟨hoffers, _ | _⟩
    simp only [hoffers.withDefault _ OfferDescription.respects_ofJson?.list?]

def rescindFields : Fields := [("offer_id", RecordAlike idFields)]

theorem respects_rescind? : Respects rescind? (RecordAlike rescindFields) :=
  respects_record (fun _ => rfl) fun as bs h => by
    rcases h with _ | ⟨hoffer, _ | _⟩
    simp only [hoffer.required respects_id?]

def statusFields : Fields :=
  [("task_id", RecordAlike idFields), ("state", Eq), ("agent_id", RecordAlike idFields),
   ("message", Eq), ("uuid", Eq)]

theorem respects_status? : Respects status? (RecordAlike statusFields) :=
  respects_record (fun _ => rfl) fun as bs h => by
    rcases h with _ | ⟨htask, _ | ⟨hstate, _ | ⟨hagent, _ | ⟨hmessage, _ | ⟨huuid, _ | _⟩⟩⟩⟩⟩
    simp only [htask.required respects_id?, hstate.required (respects_eq _),
      hagent.optional respects_id?.nullable?, hmessage.optional (respects_eq _),
      huuid.optional (respects_eq _)]

def updateFields : Fields := [("status", RecordAlike statusFields)]

theorem respects_update? : Respects update? (RecordAlike updateFields) :=
  respects_record (fun _ => rfl) fun as bs h => by
    rcases h with _ | ⟨hstatus, _ | _⟩
    simp only [hstatus.required respects_status?]

def Failure.fields : Fields :=
  [("agent_id", RecordAlike idFields), ("executor_id", RecordAlike idFields), ("status", Eq)]

theorem Failure.respects_ofJson? : Respects ofJson? (RecordAlike fields) :=
  respects_record (fun _ => rfl) fun as bs h => by
    rcases h with _ | ⟨hagent, _ | ⟨hexecutor, _ | ⟨hstatus, _ | _⟩⟩⟩
    simp only [hagent.optional respects_id?.nullable?, hexecutor.optional respects_id?.nullable?,
      hstatus.optional (respects_eq _)]

def errorFields : Fields := [("message", Eq)]

theorem respects_error? : Respects error? (RecordAlike errorFields) :=
  respects_record (fun _ => rfl) fun as bs h => by
    rcases h with _ | ⟨hmessage, _ | _⟩
    simp only [hmessage.required (respects_eq _)]

/-! ### Sections -/

/-- The sections of a message. -/
inductive Section where
  | subscribed | offers | rescind | update | failure | error
  deriving DecidableEq

namespace Section

def all : List Section := [.subscribed, .offers, .rescind, .update, .failure, .error]

/-- The types of messages that are events, and the sections that they are taken from. -/
def ofTypes : List (String × Section) :=
  [("SUBSCRIBED", .subscribed), ("OFFERS", .offers), ("RESCIND", .rescind), ("UPDATE", .update),
   ("ERROR", .error)]

/-- The section that a message of some type takes its event from. -/
def ofType? (type : String) : Option Section := ofTypes.lookup type

def name : Section → String
  | .subscribed => "subscribed"
  | .offers => "offers"
  | .rescind => "rescind"
  | .update => "update"
  | .failure => "failure"
  | .error => "error"

def fields : Section → Fields
  | .subscribed => Subscribed.fields
  | .offers => offersFields
  | .rescind => rescindFields
  | .update => updateFields
  | .failure => Failure.fields
  | .error => errorFields

/-- What a section is read as. -/
def Content : Section → Type
  | .subscribed => Subscribed
  | .offers => List OfferDescription
  | .rescind => OfferId
  | .update => TaskStatus
  | .failure => Failure
  | .error => String

def read? : (s : Section) → Json → Option s.Content
  | .subscribed => Subscribed.ofJson?
  | .offers => offers?
  | .rescind => rescind?
  | .update => update?
  | .failure => Failure.ofJson?
  | .error => error?

/-- The event that a section is in a message of its own type. -/
def event? : (s : Section) → s.Content → Option Event
  | .subscribed, c => some (.registered c.framework)
  | .offers, os => some (.offers (os.map OfferDescription.offer))
  | .rescind, id => some (.rescinded id)
  | .update, status => some (.status status)
  | .failure, _ => none
  | .error, text => some (.error text)

theorem respects_read? : (s : Section) → Respects s.read? (RecordAlike s.fields)
  | .subscribed => Subscribed.respects_ofJson?
  | .offers => respects_offers?
  | .rescind => respects_rescind?
  | .update => respects_update?
  | .failure => Failure.respects_ofJson?
  | .error => respects_error?

theorem forall_iff {p : Section → Prop} : (∀ s, p s) ↔
    p .subscribed ∧ p .offers ∧ p .rescind ∧ p .update ∧ p .failure ∧ p .error :=
  ⟨fun h => ⟨h _, h _, h _, h _, h _, h _⟩, fun ⟨h₁, h₂, h₃, h₄, h₅, h₆⟩ s => by
    cases s <;> assumption⟩

end Section

/-- The section that a message of some kind takes its event from. -/
def Kind.source? : Kind → Option Section
  | .subscribed => some .subscribed
  | .offers => some .offers
  | .rescind => some .rescind
  | .update => some .update
  | .error => some .error
  | _ => none

theorem Kind.source?_ofName (name : String) : (ofName name).source? = Section.ofType? name := by
  by_cases hnamed : name ∈ named.map (·.1)
  · have hall : ∀ name ∈ named.map (·.1), (ofName name).source? = Section.ofType? name := by decide
    exact hall name hnamed
  · have hnone {β : Type} {l : List (String × β)} (h : name ∉ l.map (·.1)) :
        l.lookup name = none :=
      List.lookup_eq_none_iff.2 fun p hp => bne_iff_ne.2 fun heq =>
        h (heq ▸ List.mem_map_of_mem hp)
    have hsubset : Section.ofTypes.map (·.1) ⊆ named.map (·.1) := by decide
    rw [ofName, Section.ofType?, hnone hnamed, hnone fun h => hnamed (hsubset h)]
    rfl

namespace Message

variable {m m' : Message} {ms ns : List (String × Json)} {name : String}

def content (m : Message) : (s : Section) → Option s.Content
  | .subscribed => m.subscribed
  | .offers => m.offers
  | .rescind => m.rescind
  | .update => m.update
  | .failure => m.failure
  | .error => m.error

def names : List String := "type" :: Section.all.map Section.name

/-- A message is read type by type and section by section. -/
theorem ofJson?_obj_eq_some_iff : ofJson? (.obj ms) = some m ↔
    namedOnce names ms = true ∧ (Slot.ofNamed "type" ms).required Kind.ofJson? = some m.kind ∧
      ∀ s, (Slot.ofNamed s.name ms).optional s.read? = some (m.content s) := by
  rw [Section.forall_iff]
  cases m
  simp [ofJson?, slots?, names, Section.all, content, Section.name, Section.read?, Option.bind_eq_some_iff]
  exact fun _ _ => Iff.rfl

theorem event?_eq (m : Message) :
    m.event? = m.kind.source?.bind fun s => (m.content s).bind s.event? := by
  rw [event?]
  cases m.kind with
  | subscribed => exact Option.map_eq_bind
  | offers => exact Option.map_eq_bind
  | rescind => exact Option.map_eq_bind
  | update => exact Option.map_eq_bind
  | error => exact Option.map_eq_bind
  | _ => rfl

/-- The members of two messages agree on what matters for messages of a type. The section of that
type has alike values; every other section has a value that can be read, or none. -/
structure AgreeOn (type : String) (ms ns : List (String × Json)) : Prop where
  named : ∃ v, valuesOf "type" ns = [v] ∧ Names v type
  own : ∀ s, Section.ofType? type = some s →
    List.Forall₂ (RecordAlike s.fields) (valuesOf s.name ms) (valuesOf s.name ns)
  others : ∀ s, Section.ofType? type ≠ some s → valuesOf s.name ns = [] ∨
    ∃ v c, valuesOf s.name ns = [v] ∧ nullable? s.read? v = some c

variable {type : String}

theorem AgreeOn.namedOnce (h : AgreeOn type ms ns) (honce : namedOnce names ms = true) :
    namedOnce names ns = true := by
  have hsection (s : Section) (hs : s.name ∈ names) : (valuesOf s.name ns).length ≤ 1 := by
    by_cases hown : Section.ofType? type = some s
    · rw [← (h.own s hown).length_eq]
      exact namedOnce_eq_true_iff.1 honce _ hs
    · rcases h.others s hown with hnone | ⟨v, c, hv, -⟩
      · simp [hnone]
      · simp [hv]
  obtain ⟨v, hv, -⟩ := h.named
  have htype : (valuesOf "type" ns).length ≤ 1 := by simp [hv]
  refine namedOnce_eq_true_iff.2 (List.forall_mem_cons.2 ⟨htype, fun name hname => ?_⟩)
  obtain ⟨s, -, hs⟩ := List.mem_map.1 hname
  exact hs ▸ hsection s (hs ▸ List.mem_cons_of_mem _ hname)

theorem exists_of_agreeOn (h : ofJson? (.obj ms) = some m) (htype : Kind.ofName type = m.kind)
    (hagree : AgreeOn type ms ns) :
    ∃ m', ofJson? (.obj ns) = some m' ∧ m'.event? = m.event? := by
  obtain ⟨honce, -, hsections⟩ := ofJson?_obj_eq_some_iff.1 h
  have hcontent (s : Section) : ∃ c, (Slot.ofNamed s.name ns).optional s.read? = some c ∧
      (Section.ofType? type = some s → c = m.content s) := by
    by_cases hown : Section.ofType? type = some s
    · have halike := slotAlike_ofNamed (hagree.own s hown)
      refine ⟨m.content s, ?_, fun _ => rfl⟩
      rw [← halike.optional s.respects_read?.nullable?, hsections s]
    · rcases hagree.others s hown with hnone | ⟨v, c, hv, hc⟩
      · refine ⟨none, ?_, fun hs => absurd hs hown⟩
        rw [Slot.ofNamed, lookup_eq_head?, hnone]
        rfl
      · refine ⟨c, ?_, fun hs => absurd hs hown⟩
        rw [Slot.ofNamed, lookup_eq_head?, hv]
        exact hc
  -- the message is put together from these, whether its own section is among them or not
  choose content hread hown using hcontent
  let m' : Message := ⟨m.kind, content .subscribed, content .offers, content .rescind,
    content .update, content .failure, content .error⟩
  have hcontents (s : Section) : m'.content s = content s := by cases s <;> rfl
  refine ⟨m', ofJson?_obj_eq_some_iff.2 ⟨hagree.namedOnce honce, ?_, fun s => ?_⟩, ?_⟩
  · obtain ⟨v, hv, hnames⟩ := hagree.named
    rw [Slot.ofNamed, lookup_eq_head?, hv]
    exact Option.map_eq_some_iff.2 ⟨type, choice?_eq_some_iff.2 hnames, htype⟩
  · rw [hcontents, hread]
  · have hkind : m'.kind.source? = Section.ofType? type := by
      rw [← Kind.source?_ofName, htype]
    rw [event?_eq, event?_eq, hkind]
    refine Option.bind_congr fun s hs => ?_
    rw [hcontents, hown s hs]

end Message

end Master

end Rollout
