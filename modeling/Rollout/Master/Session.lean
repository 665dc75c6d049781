import Rollout.Http.Exchange
import Rollout.Master.Address
import Rollout.Master.Call
import Rollout.Master.Message
import Rollout.Master.Stream

/-!
A session with the master: the subscription, the events that follow it, and the calls in between.

A subscription is granted by an answer that names the stream and by a message, the first of its kind
on that stream, that names the framework. All later calls carry both names. Once a session is
stopped nothing is posted any more: every call but another stop fails, and another stop succeeds.
The session is stopped before the master hears of it, whatever the master says then.

The other side is given by its answers: what it says to the subscription, and what to the call
posted after `n` others, if it says anything at all.
-/
namespace Rollout.Master

open Text (Bytes)

/-- A request to the master. -/
structure Request where
  endpoint : Uri
  /-- The stream that the call belongs to. -/
  stream : Option String
  call : Call
  deriving DecidableEq, Repr

/-- The code of an answer that grants a subscription. -/
def okCode : Nat := 200

/-- The code of an answer that grants any other call. -/
def acceptedCode : Nat := 202

/-- The header that names a stream. -/
def streamHeader : String := "Mesos-Stream-Id"

def jsonType : String := "application/json"

namespace Request

/-- How every request is sent. -/
def method : String := "POST"

/-- The headers that say what is sent, what is wanted, and which stream is meant. -/
def headers (r : Request) : List (String × String) :=
  [("Content-Type", jsonType), ("Accept", jsonType)] ++ (r.stream.map (streamHeader, ·)).toList

end Request

/-- An answer of the master. -/
structure Response where
  code : Nat
  headers : Http.Headers
  body : List Piece
  deriving DecidableEq, Repr

namespace Response

/-- Reads an answer from what came on a connection, part by part, before it ended. -/
def ofParts? (parts : List Bytes) : Option Response :=
  let (r, bodies) := Http.Receiver.initial.feedAll parts
  if r.hasHead then
    some ⟨r.code, r.headers,
      bodies.map .data ++ if r.isComplete then [] else [.broken Http.brokenReason]⟩
  else none

/-- The text of the first header with a name. -/
def header? (r : Response) (name : String) : Option String :=
  (r.headers.get? name).bind Http.valueText?

/-- All data of a body, or why it broke off. -/
def gather : List Piece → Except String Bytes
  | [] => .ok []
  | .data bytes :: rest => (gather rest).map (bytes ++ ·)
  | .trailers :: rest => gather rest
  | .broken reason :: _ => .error reason

/-- The body as text, for a message. -/
def text (r : Response) : String :=
  match gather r.body with
  | .ok bytes => String.ofList (Text.trim (Text.decodeLossy bytes))
  | .error reason => s!"<unreadable body: {reason}>"

/-- The answer as a refusal. -/
def refusal (r : Response) : MasterError := .refused r.code r.text

/-- The stream that an answer to a subscription opens. -/
def stream (r : Response) : Except MasterError String :=
  if r.code ≠ okCode then .error r.refusal
  else
    match r.header? streamHeader with
    | some stream => .ok stream
    | none => .error .unnamedStream

end Response

/-! ### Subscribing -/

/-- What a subscription needs. -/
structure Registration where
  /-- The address of the master. -/
  master : String
  framework : FrameworkInfo
  /-- The seconds for which unused offers are not wanted again. -/
  refusal : Float
  deriving DecidableEq, Repr

/-- The request for a subscription. -/
def Registration.request (r : Registration) (endpoint : Uri) : Request :=
  ⟨endpoint, none, .subscribe r.framework⟩

/-- What a session knows from its subscription. -/
structure Session where
  endpoint : Uri
  stream : String
  framework : FrameworkId
  refusal : Float
  deriving DecidableEq, Repr

/-- The session that a subscription opens. -/
def Registration.session (r : Registration) (endpoint : Uri) (stream : String)
    (framework : FrameworkId) : Session :=
  ⟨endpoint, stream, framework, r.refusal⟩

/-- The events of a session, and what there is to note about them. -/
structure Feed where
  events : List Event
  entries : List Entry
  deriving DecidableEq, Repr

def closedEntry : Entry := .warn "mesos event stream closed by master" []

def failedEntry (e : MasterError) : Entry :=
  .error "mesos event stream failed" [("error", e.message)]

/-- The events of one thing on a stream. -/
def Feed.ofNext : Next Message → Feed
  | .item m => ⟨m.event?.toList, m.entries⟩
  | .failed e => ⟨[], [failedEntry e]⟩
  | .ended leftover => ⟨[], (Next.ended leftover : Next Message).entries ++ [closedEntry]⟩

/-- No events come behind this. -/
def Next.closes {α : Type} : Next α → Bool
  | .item _ => false
  | .failed _ => true
  | .ended _ => true

/-- The events of a stream up to its end or its first failure. -/
def Feed.ofList : List (Next Message) → Feed
  | [] => ⟨[], []⟩
  | n :: rest =>
    let first := ofNext n
    if n.closes then first
    else
      let feed := ofList rest
      ⟨first.events ++ feed.events, first.entries ++ feed.entries⟩

/-- What is known from one thing on a stream about the subscription: the framework that was named,
why there will be none, or nothing yet. -/
def Next.confirmation? : Next Message → Option (Except MasterError FrameworkId)
  | .item m => m.confirmed?.map .ok
  | .failed e => some (.error e)
  | .ended _ => some (.error .notSubscribed)

theorem Next.confirmation?_eq_none_iff {n : Next Message} :
    n.confirmation? = none ↔ ∃ m, n = .item m ∧ m.confirmed? = none := by
  cases n <;> simp [confirmation?]

theorem Next.confirmation?_eq_ok_iff {n : Next Message} {framework : FrameworkId} :
    n.confirmation? = some (.ok framework) ↔ ∃ m, n = .item m ∧ m.confirmed? = some framework := by
  cases n <;> simp [confirmation?]

/-- Reads until the subscription is confirmed: the framework that is named, and the stream as it is
then, with the bytes that came along with the confirmation. -/
def Stream.confirm (read : Bytes → Option Message) (s : Stream) :
    Except MasterError (FrameworkId × Stream) :=
  match _h : s.next read with
  | (n, s') =>
    match _hopen : n.confirmation? with
    | some verdict => verdict.map (·, s')
    | none => s'.confirm read
termination_by s.bound
decreasing_by
  obtain ⟨m, rfl, -⟩ := Next.confirmation?_eq_none_iff.1 _hopen
  have hlt : (s.next read).1.isLast = false → (s.next read).2.bound < s.bound := bound_next_lt
  rw [_h] at hlt
  exact hlt rfl

/-- The registration goes before all other events. -/
def Feed.register (framework : FrameworkId) (feed : Feed) : Feed :=
  { feed with events := .registered framework :: feed.events }

/-- Makes a session of the answer to a subscription, with a way to read messages. -/
def Session.ofResponse (read : Bytes → Option Message) (r : Registration) (endpoint : Uri)
    (response : Response) : Except MasterError (Session × Feed) := do
  let stream ← response.stream
  let (framework, rest) ← (Stream.ofPieces response.body).confirm read
  let feed := Feed.ofList (rest.toList read)
  return (r.session endpoint stream framework, feed.register framework)

/-- Subscribes, with the master's answer if there is one. -/
def Session.subscribe (r : Registration) (answer : Option Response) :
    Except MasterError (Session × Feed) := do
  let endpoint ← endpointOf r.master
  match answer with
  | some response => ofResponse Message.read? r endpoint response
  | none => .error .unreachable

/-- A subscription is granted by an answer, and by no other address than the master's. -/
theorem Session.subscribe_eq_ok_iff {r : Registration} {answer : Option Response}
    {granted : Session × Feed} :
    subscribe r answer = .ok granted ↔
      ∃ endpoint response, endpointOf r.master = .ok endpoint ∧ answer = some response ∧
        ofResponse Message.read? r endpoint response = .ok granted := by
  rw [subscribe]
  cases endpointOf r.master with
  | error e => exact iff_of_false nofun fun ⟨_, _, h, _⟩ => nomatch h
  | ok endpoint =>
    cases answer with
    | none => exact iff_of_false nofun fun ⟨_, _, _, h, _⟩ => nomatch h
    | some response => simp [bind, Except.bind]

/-! ### Calling -/

/-- The answers of a master to the calls of a session, by how many were posted before. -/
abbrev Answers := Nat → Option Response

/-- What a session has done so far. -/
structure Line where
  stopped : Bool
  /-- The requests posted, in order. -/
  posted : List Request
  deriving DecidableEq, Repr

def Line.initial : Line := ⟨false, []⟩

namespace Session

/-- A request of a session. -/
def request (s : Session) (call : Call) : Request := ⟨s.endpoint, some s.stream, call⟩

/-- A request names the stream of its session, and no other one. -/
theorem mem_headers_request_iff {s : Session} {call : Call} {name : String} :
    (streamHeader, name) ∈ (s.request call).headers ↔ name = s.stream := by
  simp [request, Request.headers, streamHeader]

/-- Posts a call. -/
def post (s : Session) (answers : Answers) (call : Call) (line : Line) :
    Except MasterError Unit × Line :=
  let line' := { line with posted := line.posted ++ [s.request call] }
  match answers line.posted.length with
  | none => (.error .unreachable, line')
  | some response =>
    if response.code = acceptedCode then (.ok (), line') else (.error response.refusal, line')

/-- Carries out a command. -/
def perform (s : Session) (answers : Answers) (c : Command) (line : Line) :
    Except MasterError Unit × Line :=
  if line.stopped then (if c = .stop then .ok () else .error .stopped, line)
  else
    let line := { line with stopped := c = .stop }
    match Call.ofCommand? s.framework s.refusal c with
    | none => (.ok (), line)
    | some call => s.post answers call line

/-- A session as the manager of a run. -/
def manager (s : Session) (answers : Answers) : Manager Line where
  perform c line :=
    let (result, line) := s.perform answers c line
    (result.mapError MasterError.toCommandError, line)

end Session

end Rollout.Master
