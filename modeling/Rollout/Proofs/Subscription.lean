import Rollout.Proofs.Bodies
import Rollout.Proofs.Calls
import Rollout.Proofs.Stream

/-!
What a subscription leads to.

Reading goes on until a message confirms the subscription, and the stream is then handed on as it
is, with the bytes that already wait in it. So the messages of the whole stream fall into those
before the confirmation, the confirmation, and those that are still to be read, and only the last
ones become events of the session. The names that the session took from the confirmation and from
the answer are on all its requests, whatever comes later.
-/
namespace Rollout.Master

open Text (Bytes)

/-- What there is before the first failure and before the end. -/
def Next.leading {α : Type} : List (Next α) → List α
  | .item a :: rest => a :: leading rest
  | .failed _ :: _ | .ended _ :: _ | [] => []

theorem Message.confirmed?_eq_some_iff {m : Message} {framework : FrameworkId} :
    m.confirmed? = some framework ↔
      m.kind = .subscribed ∧ m.subscribed.map (·.framework) = some framework := by
  rw [confirmed?]
  split <;> simp_all

theorem Message.isSome_confirmed?_iff {m : Message} :
    m.confirmed?.isSome ↔ m.kind = .subscribed ∧ m.subscribed.isSome := by
  rw [confirmed?]
  split <;> simp_all

/-! ### The confirmation -/

namespace Stream

variable {read : Bytes → Option Message} {s s' : Stream}

/-- The messages of a stream up to its first failure or its end. -/
def messages (read : Bytes → Option Message) (s : Stream) : List Message :=
  Next.leading (s.toList read)

theorem messages_of_item {m : Message} (h : s.next read = (.item m, s')) :
    s.messages read = m :: s'.messages read := by
  rw [messages, toList_eq, h]
  rfl

theorem messages_of_failed {e : MasterError} (h : s.next read = (.failed e, s')) :
    s.messages read = [] := by
  rw [messages, toList_eq, h]
  split <;> rfl

theorem messages_of_ended {n : Nat} (h : s.next read = (.ended n, s')) :
    s.messages read = [] := by
  rw [messages, toList_eq, h]
  rfl

/-- The first message that confirms the subscription is found. The messages behind it are those of
the stream that is handed on: what was read along with it is not lost. -/
theorem messages_of_confirm {framework : FrameworkId}
    (h : s.confirm read = .ok (framework, s')) :
    ∃ before m, s.messages read = before ++ m :: s'.messages read ∧
      m.confirmed? = some framework ∧ ∀ m' ∈ before, m'.confirmed? = none := by
  fun_induction confirm read s with
  | case1 s n rest hnext verdict hverdict =>
    cases verdict with
    | error e => cases h
    | ok framework =>
      cases h
      obtain ⟨m, rfl, hm⟩ := Next.confirmation?_eq_ok_iff.1 hverdict
      exact ⟨[], m, messages_of_item hnext, hm, List.forall_mem_nil _⟩
  | case2 s n rest hnext hopen ih =>
    obtain ⟨m, rfl, hm⟩ := Next.confirmation?_eq_none_iff.1 hopen
    obtain ⟨before, m', hmessages, hfirst, hbefore⟩ := ih h
    refine ⟨m :: before, m', ?_, hfirst, List.forall_mem_cons.2 ⟨hm, hbefore⟩⟩
    rw [messages_of_item hnext, hmessages, List.cons_append]

/-- If a message confirms the subscription, one is found. -/
theorem exists_confirm (h : ∃ m ∈ s.messages read, m.confirmed?.isSome) :
    ∃ framework s', s.confirm read = .ok (framework, s') := by
  fun_induction confirm read s with
  | case1 s n rest hnext verdict hverdict =>
    obtain ⟨m', hmem, hm'⟩ := h
    cases n with
    | item m =>
      obtain ⟨framework, hm, rfl⟩ := Option.map_eq_some_iff.1 hverdict
      exact ⟨framework, rest, rfl⟩
    | failed e =>
      rw [messages_of_failed hnext] at hmem
      cases hmem
    | ended k =>
      rw [messages_of_ended hnext] at hmem
      cases hmem
  | case2 s n rest hnext hopen ih =>
    obtain ⟨m, rfl, hm⟩ := Next.confirmation?_eq_none_iff.1 hopen
    rw [messages_of_item hnext] at h
    obtain ⟨m', hmem, hm'⟩ := h
    rcases List.mem_cons.1 hmem with rfl | hmem
    · rw [hm] at hm'
      cases hm'
    · exact ih ⟨m', hmem, hm'⟩

end Stream

theorem Feed.events_ofList (readings : List (Next Message)) :
    (Feed.ofList readings).events = (Next.leading readings).filterMap Message.event? := by
  induction readings with
  | nil => rfl
  | cons first readings ih =>
    cases first with
    | item m =>
      rw [Next.leading, List.filterMap_cons, ← ih]
      cases hevent : m.event? <;> simp [ofList, ofNext, Next.closes, hevent]
    | failed e => rfl
    | ended n => rfl

/-! ### The session -/

theorem Response.stream_eq_ok_iff {response : Response} {name : String} :
    response.stream = .ok name ↔
      response.code = okCode ∧ response.header? streamHeader = some name := by
  rw [stream]
  split
  · next hcode => simp [hcode]
  · next hcode =>
    cases response.header? streamHeader <;> simp [not_not.1 hcode]

namespace Session

variable {read : Bytes → Option Message} {r : Registration} {endpoint : Uri} {response : Response}
  {session : Session} {feed : Feed}

theorem ofResponse_eq_ok_iff : ofResponse read r endpoint response = .ok (session, feed) ↔
    ∃ name framework rest, response.stream = .ok name ∧
      (Stream.ofPieces response.body).confirm read = .ok (framework, rest) ∧
      session = ⟨endpoint, name, framework, r.refusal⟩ ∧
      feed = (Feed.ofList (rest.toList read)).register framework := by
  rw [ofResponse]
  cases response.stream with
  | error e => simp [bind, Except.bind]
  | ok name =>
    cases (Stream.ofPieces response.body).confirm read with
    | error e => simp [bind, Except.bind]
    | ok granted =>
      simp [bind, Except.bind, pure, Except.pure, Prod.ext_iff, Registration.session, eq_comm]

/-- Whatever commands are carried out, all requests carry the names of the session: that of the
stream in their headers, where no other stream is named, and that of the framework in their
bodies. -/
theorem names_of_mem_posted (s : Session) (answers : Answers) (commands : List Command) :
    ∀ q ∈ ((s.manager answers).after .initial commands).posted,
      q.endpoint = s.endpoint ∧ q.stream = some s.stream ∧
      q.call.framework? = some s.framework ∧
      (∀ name, (streamHeader, name) ∈ q.headers ↔ name = s.stream) ∧
      q.call.toJson.get? "framework_id" = some (Call.idRecord s.framework) := by
  intro q hq
  obtain ⟨c, -, hc⟩ := exists_command_of_mem_posted hq
  obtain ⟨call, hcall, rfl⟩ := mem_requests_iff.1 hc
  have hframework := Call.framework?_of_ofCommand? hcall
  exact ⟨rfl, rfl, hframework, fun _ => mem_headers_request_iff, Call.get?_framework_id hframework⟩

/-- The answer grants a subscription exactly if it has the right code, names the stream, and brings
a message that confirms the subscription before any failure. -/
theorem exists_ofResponse_iff : (∃ granted, ofResponse read r endpoint response = .ok granted) ↔
    response.code = okCode ∧ (∃ name, response.header? streamHeader = some name) ∧
    ∃ m ∈ (Stream.ofPieces response.body).messages read,
      m.kind = .subscribed ∧ m.subscribed.isSome := by
  constructor
  · rintro ⟨⟨session, feed⟩, hgranted⟩
    obtain ⟨name, framework, rest, hname, hconfirm, -, -⟩ := ofResponse_eq_ok_iff.1 hgranted
    obtain ⟨before, m, hmessages, hm, -⟩ := Stream.messages_of_confirm hconfirm
    obtain ⟨hcode, hheader⟩ := Response.stream_eq_ok_iff.1 hname
    refine ⟨hcode, ⟨name, hheader⟩, m, ?_, ?_⟩
    · rw [hmessages]
      exact List.mem_append_right _ List.mem_cons_self
    · exact Message.isSome_confirmed?_iff.1 (hm ▸ rfl)
  · rintro ⟨hcode, ⟨name, hheader⟩, m, hmem, hm⟩
    have hname := Response.stream_eq_ok_iff.2 ⟨hcode, hheader⟩
    obtain ⟨framework, rest, hconfirm⟩ :=
      Stream.exists_confirm ⟨m, hmem, Message.isSome_confirmed?_iff.2 hm⟩
    exact ⟨_, ofResponse_eq_ok_iff.2 ⟨name, framework, rest, hname, hconfirm, rfl, rfl⟩⟩

/-- The first message that confirms the subscription names the framework, and the events are those
of the messages behind it. -/
theorem events_of_ofResponse (h : ofResponse read r endpoint response = .ok (session, feed)) :
    ∃ before m after, (Stream.ofPieces response.body).messages read = before ++ m :: after ∧
      (∀ m' ∈ before, ¬(m'.kind = .subscribed ∧ m'.subscribed.isSome)) ∧
      m.kind = .subscribed ∧ m.subscribed.map (·.framework) = some session.framework ∧
      feed.events = .registered session.framework :: after.filterMap Message.event? := by
  obtain ⟨name, framework, rest, -, hconfirm, rfl, rfl⟩ := ofResponse_eq_ok_iff.1 h
  obtain ⟨before, m, hmessages, hm, hbefore⟩ := Stream.messages_of_confirm hconfirm
  obtain ⟨hkind, hsection⟩ := Message.confirmed?_eq_some_iff.1 hm
  refine ⟨before, m, rest.messages read, hmessages, fun m' hm' hconfirms => ?_, hkind, hsection, ?_⟩
  · have hsome := Message.isSome_confirmed?_iff.2 hconfirms
    rw [hbefore m' hm'] at hsome
    cases hsome
  · exact congrArg (_ :: ·) (Feed.events_ofList (rest.toList read))

/-- An answer grants a subscription exactly if it has the right code, names the stream, and brings a
message that confirms the subscription before any failure. The first such message decides: the
session is registered with its framework, the events are those of the messages behind it up to the
next failure or the end, and all requests carry its framework in their bodies and the stream of the
answer in their headers. -/
theorem granted_by_first_confirmation (read : Bytes → Option Message) (r : Registration)
    (endpoint : Uri) (response : Response) :
    let messages := (Stream.ofPieces response.body).messages read
    ((∃ granted, ofResponse read r endpoint response = .ok granted) ↔
      response.code = okCode ∧ (∃ name, response.header? streamHeader = some name) ∧
      ∃ m ∈ messages, m.kind = .subscribed ∧ m.subscribed.isSome) ∧
    ∀ session feed, ofResponse read r endpoint response = .ok (session, feed) →
      response.header? streamHeader = some session.stream ∧
      (∃ before m after, messages = before ++ m :: after ∧
        (∀ m' ∈ before, ¬(m'.kind = .subscribed ∧ m'.subscribed.isSome)) ∧
        m.kind = .subscribed ∧ m.subscribed.map (·.framework) = some session.framework ∧
        feed.events = .registered session.framework :: after.filterMap Message.event?) ∧
      ∀ answers commands, ∀ q ∈ ((session.manager answers).after .initial commands).posted,
        q.endpoint = endpoint ∧ q.stream = some session.stream ∧
        q.call.framework? = some session.framework ∧
        (∀ name, (streamHeader, name) ∈ q.headers ↔ name = session.stream) ∧
        q.call.toJson.get? "framework_id" = some (Call.idRecord session.framework) := by
  intro messages
  refine ⟨exists_ofResponse_iff, fun session feed hgranted => ?_⟩
  have hevents := events_of_ofResponse hgranted
  obtain ⟨name, framework, rest, hname, -, rfl, -⟩ := ofResponse_eq_ok_iff.1 hgranted
  obtain ⟨-, hheader⟩ := Response.stream_eq_ok_iff.1 hname
  exact ⟨hheader, hevents, fun answers commands => names_of_mem_posted _ answers commands⟩

/-- The confirmation stands in one piece with a message before it, one behind it and another
confirmation, which is an event but changes no request. -/
theorem granted_by_first_confirmation_repeated :
    let confirmation (framework : FrameworkId) : Message :=
      ⟨.subscribed, some ⟨framework, none⟩, none, none, none, none, none⟩
    let withdrawal : Message := ⟨.rescind, none, none, some "o1", none, none, none⟩
    let read : Bytes → Option Message := fun r =>
      if r = [1] then some (confirmation "f1")
      else if r = [2] then some (confirmation "f2")
      else some withdrawal
    let response : Response := ⟨200, [(streamHeader, [115])],
      [.data (Frame.frames [[0], [1], [0], [2]])]⟩
    let r : Registration := ⟨"m", ⟨"install", ""⟩, 5⟩
    let endpoint : Uri := ⟨['m'], schedulerPath, none⟩
    let session : Session := ⟨endpoint, "s", "f1", 5⟩
    ∃ feed, ofResponse read r endpoint response = .ok (session, feed) ∧
      feed.events = [.registered "f1", .rescinded "o1", .registered "f2"] ∧
      ∀ answers commands, ∀ q ∈ ((session.manager answers).after .initial commands).posted,
        (streamHeader, "s") ∈ q.headers ∧
        q.call.toJson.get? "framework_id" = some (Call.idRecord "f1") := by
  intro confirmation withdrawal read response r endpoint session
  have hname : response.stream = .ok "s" := by decide +kernel
  let rest : Stream := ⟨⟨Frame.defaultLimit, Frame.frames [[0], [2]]⟩, []⟩
  have hconfirm : (Stream.ofPieces response.body).confirm read = .ok ("f1", rest) := by
    decide +kernel
  have hevents : ((Feed.ofList (rest.toList read)).register "f1").events =
      [.registered "f1", .rescinded "o1", .registered "f2"] := by decide +kernel
  generalize hfeed : (Feed.ofList (rest.toList read)).register "f1" = feed at hevents
  have hgranted : ofResponse read r endpoint response = .ok (session, feed) :=
    ofResponse_eq_ok_iff.2 ⟨"s", "f1", rest, hname, hconfirm, rfl, hfeed.symm⟩
  obtain ⟨-, hsession⟩ := granted_by_first_confirmation read r endpoint response
  obtain ⟨-, -, hnames⟩ := hsession session feed hgranted
  refine ⟨feed, hgranted, hevents, fun answers commands q hq => ?_⟩
  obtain ⟨-, -, -, hstream, hframework⟩ := hnames answers commands q hq
  exact ⟨(hstream "s").2 rfl, hframework⟩

end Session

end Rollout.Master
