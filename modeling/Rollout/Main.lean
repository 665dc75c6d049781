import Rollout.CommandLine
import Rollout.Http.Exchange
import Rollout.Json.Printer
import Rollout.Uuid
import Rollout.Watchdog
import Std.Async.DNS
import Std.Async.TCP

/-!
The program: it reads its arguments and a file, talks to a master over TCP, keeps the time, and
prints its journal. What to do is decided elsewhere: here requests are sent and answers received,
acts are carried out at their times, and what a command came to is handed back.
-/
namespace Rollout.Live

open Master
open Std.Async (DNS.getAddrInfo)
open Std.Async.TCP
open Text (Bytes)

/-! ### Files -/

/-- An error has this number; some calls give it with the opposite sign. -/
def hasNumber (code n : UInt32) : Bool := code == n || code == 0 - n

def fileError (e : IO.Error) : FileError :=
  match e with
  | .noFileOrDirectory _ _ _ => .notFound
  | .inappropriateType _ code _ | .invalidArgument _ code _ =>
    if hasNumber code 20 then .notADirectory
    else if hasNumber code 21 then .isADirectory
    else if hasNumber code 36 then .nameTooLong
    else .other (toString e)
  | e => .other (toString e)

/-- Reads the text of a file. -/
def readText (path : String) : IO (Except FileError (List Char)) := do
  try
    match Text.decode? (← IO.FS.readBinFile path).toList with
    | some text => return .ok text
    | none => return .error .notText
  catch e => return .error (fileError e)

/-! ### Connections -/

/-- A connection on which an answer is being received. -/
structure Connection where
  socket : Socket.Client
  receiver : Http.Receiver

/-- The most bytes that are received at once. -/
def receiveLimit : UInt64 := 65536

/-- Receives bytes of the body; nothing at the end of the connection. -/
def Connection.receive (c : Connection) : IO (Option (Bytes × Connection)) := do
  match ← (c.socket.recv? receiveLimit).block with
  | some bytes =>
    let (receiver, body) := c.receiver.feed bytes.toList
    return some (body, { c with receiver })
  | none => return none

/-- Receives the head of the answer, and what came of the body with it. -/
partial def Connection.receiveHead (c : Connection) : IO (Option (Bytes × Connection)) := do
  match ← c.receive with
  | none => return none
  | some (body, c) =>
    if c.receiver.hasHead then return some (body, c)
    else if c.receiver.isOver then return none
    else c.receiveHead

/-- Receives the next piece of the body. -/
def Connection.piece (c : Connection) : IO (Option Piece × Connection) := do
  let done : Connection := { c with receiver := { c.receiver with place := .finished } }
  if c.receiver.place == .broken then return (some (.broken Http.brokenReason), done)
  else if c.receiver.isOver then return (none, c)
  else
    try
      match ← c.receive with
      | some (body, c) => return (some (.data body), c)
      | none =>
        return (if c.receiver.isComplete then none else some (.broken Http.brokenReason), done)
    catch e => return (some (.broken (toString e)), done)

/-- Receives the rest of the body. -/
partial def Connection.pieces (c : Connection) (done : List Piece) : IO (List Piece) := do
  match ← c.piece with
  | (some p, c) => c.pieces (p :: done)
  | (none, _) => return done.reverse

def socketAddress (port : UInt16) : Std.Net.IPAddr → Std.Net.SocketAddress
  | .v4 addr => .v4 ⟨addr, port⟩
  | .v6 addr => .v6 ⟨addr, port⟩

/-- Connects to the first address of a host that can be reached. -/
def connect (u : Uri) : IO (Option Socket.Client) := do
  let name := String.ofList u.host
  for addr in ← (DNS.getAddrInfo name (toString u.port)).block do
    try
      let socket ← Socket.Client.mk
      (socket.connect (socketAddress u.port.toUInt16 addr)).block
      return some socket
    catch _ => pure ()
  return none

/-- Sends a request, and receives the head of the answer. -/
def send (r : Request) : IO (Option (Bytes × Connection)) := do
  try
    match ← connect r.endpoint with
    | none => return none
    | some socket =>
      let body := Text.encode r.call.toJson.render.toList
      let bytes := Http.requestBytes Request.method r.endpoint r.headers body
      (socket.send ⟨bytes.toArray⟩).block
      Connection.receiveHead ⟨socket, .initial⟩
  catch _ => return none

/-- The answer whose head a connection has received, with some of its body. -/
def Connection.response (c : Connection) (body : List Piece) : Response :=
  ⟨c.receiver.code, c.receiver.headers, body⟩

/-- Sends a request, and receives the whole answer. -/
def exchange (r : Request) : IO (Option Response) := do
  match ← send r with
  | none => return none
  | some (body, c) => return some (c.response (.data body :: (← c.pieces [])))

/-! ### Subscribing -/

/-- A body that is read as a stream while it is received. -/
structure Reception where
  connection : Connection
  stream : Stream

/-- What the stream has next. -/
partial def Reception.next (r : Reception) : IO (Next Message × Reception) := do
  let (n, stream) := r.stream.next Message.read?
  match n with
  | .ended _ =>
    match ← r.connection.piece with
    | (some p, connection) => Reception.next ⟨connection, { stream with pieces := [p] }⟩
    | (none, connection) => return (n, ⟨connection, stream⟩)
  | _ => return (n, { r with stream })

/-- Waits for the confirmation of the subscription. -/
partial def Reception.confirm (r : Reception) :
    IO (Except MasterError (FrameworkId × Reception)) := do
  let (n, r) ← r.next
  match n.confirmation? with
  | some verdict => return verdict.map (·, r)
  | none => r.confirm

/-- Subscribes. A refusal tells the whole body of its answer. -/
def subscribe (r : Registration) : IO (Except MasterError (Session × Reception)) := do
  match endpointOf r.master with
  | .error e => return .error e
  | .ok endpoint =>
    match ← send (r.request endpoint) with
    | none => return .error .unreachable
    | some (body, c) =>
      match (c.response []).stream with
      | .error _ =>
        let response := c.response (.data body :: (← c.pieces []))
        return response.stream.bind fun _ => .error .unnamedStream
      | .ok stream =>
        let confirmed ← Reception.confirm ⟨c, .ofPieces [.data body]⟩
        return confirmed.map fun (framework, reception) =>
          (r.session endpoint stream framework, reception)

/-! ### Time and journal -/

/-- A clock in milliseconds that stands still while a command is under way. -/
structure Clock where
  start : Nat
  paused : IO.Ref Nat

/-- The last time that can be told. -/
def Clock.horizon (c : Clock) : Nat := Wait.horizon - c.start

def Clock.now (c : Clock) : IO Nat := do
  return (← IO.monoMsNow) - c.start - (← c.paused.get)

def Clock.pausedWhile {α : Type} (c : Clock) (act : IO α) : IO α := do
  let before ← IO.monoMsNow
  let a ← act
  let after ← IO.monoMsNow
  c.paused.modify (· + (after - before))
  return a

partial def Clock.sleepUntil (c : Clock) (time : Nat) : IO Unit := do
  let now ← c.now
  if now < time then
    IO.sleep (min (time - now) 1000).toUInt32
    c.sleepUntil time

def entryText (e : Entry) : String :=
  " ".intercalate (e.level.text :: e.message :: e.fields.map fun (k, v) => k ++ "=" ++ v)

def entryJson (e : Entry) : Json :=
  .obj [("level", .str e.level.text),
    ("fields", .obj (("message", .str e.message) :: e.fields.map fun (k, v) => (k, .str v)))]

def printEntry (asJson : Bool) (e : Entry) : IO Unit :=
  IO.println (if asJson then (entryJson e).render else entryText e)

/-- What the watchdog sees of a run. -/
structure Sight where
  progress : Progress
  /-- The time of the last signal or report. -/
  since : Nat
  stopped : Bool

/-- Reports whenever there was no signal for some time. -/
partial def watch (timeout : Nat) (sight : IO.Ref Sight) (print : Entry → IO Unit) : IO Unit := do
  let s ← sight.get
  if s.stopped || s.progress.isDone then return
  let now ← IO.monoMsNow
  let past := Watchdog.watchFrom timeout 0 s.progress s.since [(now + 1, .shutdown)]
  for (_, p) in past.reports do print (Watchdog.entry timeout p)
  sight.modify fun t =>
    if t.since = s.since then
      { t with since := s.since + Wait.span timeout * past.warnings }
    else t
  IO.sleep 50
  watch timeout sight print

/-! ### Running -/

/-- What a run works with. -/
structure Workshop where
  session : Session
  dispatcher : Dispatcher
  clock : Clock
  line : IO.Ref Line
  sight : IO.Ref Sight
  print : Entry → IO Unit

/-- Carries out a command. -/
def Workshop.perform (w : Workshop) (c : Command) : IO (Except CommandError Unit) := do
  let before ← w.line.get
  let silent := ((w.session.manager fun _ => none).perform c before).2
  let mut answer : Option Response := none
  for r in silent.posted.drop before.posted.length do
    answer ← w.clock.pausedWhile (exchange r)
  let (result, line) := (w.session.manager fun _ => answer).perform c before
  w.line.set line
  return result

/-- Answers to commands, in order. -/
abbrev Script := List (Except CommandError Unit)

/-- Carries out what a run does next, of which `done` acts are carried out, and their commands
answered. What comes next is known only as far as the answers go. -/
partial def Workshop.carryOut {α : Type} (w : Workshop) (next : Script → Run Script × Trace × α)
    (done : Nat) (answers : Script) : IO (Run Script × α) := do
  let (run, acts, outcome) := next answers
  match acts[done]? with
  | none => return (run, outcome)
  | some (time, act) =>
    w.clock.sleepUntil time
    match act with
    | .command c _ =>
      let answer ← w.perform c
      w.carryOut next (done + 1) (answers ++ [answer])
    | .publish p =>
      let now ← IO.monoMsNow
      w.sight.modify fun s => { s with progress := p, since := now }
      w.carryOut next (done + 1) answers
    | .note e =>
      w.print e
      w.carryOut next (done + 1) answers

/-- Handles events up to the end of the run. -/
def Workshop.handle (w : Workshop) (run : Run Script) :
    List Event → IO (Run Script × Option Run.Close)
  | [] => return (run, none)
  | e :: rest => do
    let now ← w.clock.now
    let (run, close) ← w.carryOut (fun answers =>
      Run.handleUntil .scripted w.dispatcher w.clock.horizon { run with manager := answers } now e)
      0 []
    if close.isSome then return (run, close) else w.handle run rest

/-- Handles the events of a stream up to the end of the run. -/
partial def Workshop.follow (w : Workshop) (run : Run Script) (r : Reception) :
    IO Run.Close := do
  let (n, r) ← r.next
  let feed := Feed.ofNext n
  for e in feed.entries do w.print e
  let (run, close) ← w.handle run feed.events
  match close with
  | some close => return close
  | none =>
    if n.closes then
      let now ← w.clock.now
      let (_, ending) ← w.carryOut (fun answers =>
        Run.disconnect { run with manager := answers } now) 0 []
      return some ending
    else w.follow run r

/-- Carries out a plan. -/
def install (plan : Plan) (d : Dispatcher) (print : Entry → IO Unit) :
    IO (Option (Except InstallError Outcome)) := do
  match ← subscribe plan.registration with
  | .error e => return some (.error (.registration e))
  | .ok (session, reception) =>
    let start ← IO.monoMsNow
    let w : Workshop :=
      ⟨session, d, ⟨start, ← IO.mkRef 0⟩, ← IO.mkRef .initial, ← IO.mkRef ⟨.initial, start, false⟩,
        print⟩
    let watcher ← IO.asTask (watch plan.timeout.millis w.sight print)
    let (run, _) ← w.handle (.initial plan.interval.millis []) [.registered session.framework]
    let close ← w.follow run reception
    w.sight.modify fun s => { s with stopped := true }
    let _ ← IO.wait watcher
    return close.map Installation.resultOf

/-- Carries out what the arguments ask for. -/
def perform (i : Invocation) : IO Exit := do
  let text ← match i.configPath with
    | some path => readText path
    | none => pure (.ok [])
  match i.config fun _ => text with
  | .error e => return .failure e.message
  | .ok c =>
    match Plan.ofConfig i.master c with
    | .error e => return .failure e.message
    | .ok plan =>
      let start := (← IO.getRandomBytes 16).toList.foldl (fun n b => 256 * n + b.toNat) 0
      let d := Dispatcher.ofPayload (i.payload c) (Uuid.drawn start)
      return .ofResult (← install plan d (printEntry i.logJson))

def usage : String :=
  "Usage: rollout [OPTIONS] <MASTER> <PAYLOAD_URL> <FIRST_PARAM> <SECOND_PARAM>\n\nOptions:\n" ++
    String.join (Setting.all.map fun s => s!"  --{s.flag} <VALUE>\n") ++
    "  --log-json\n  -h, --help"

end Rollout.Live

def main (args : List String) : IO UInt32 := do
  match Rollout.Invocation.ofArguments args with
  | .error d =>
    match d with
    | .help => IO.println Rollout.Live.usage
    | .misuse => IO.eprintln Rollout.Live.usage
    return d.exitCode.toUInt32
  | .ok i =>
    let exit ← Rollout.Live.perform i
    if let some message := exit.message then IO.eprintln message
    return exit.code.toUInt32
