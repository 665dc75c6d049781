import Rollout.Http.Header
import Rollout.Http.StatusCode
import Rollout.Uri

/-!
Exchanges over HTTP/1.1: how a request is written, and how an answer is read byte by byte.

An answer is a line with its status code, headers, and a body, which is as long as the headers say.
A body in chunks is a row of lines with a size and as many bytes; behind the last chunk, which is
empty, more headers may follow, which say nothing. Answers that only announce another one are passed
over.
-/
namespace Rollout.Http

open Text (Bytes)

/-! ### Requests -/

def headerLine (h : String × String) : List Char :=
  h.1.toList ++ ": ".toList ++ h.2.toList ++ lineBreak

/-- What says where the request is going and how long its body is. -/
def ownHeaders (u : Uri) (body : Bytes) : List (String × String) :=
  [("Host", String.ofList (Uri.afterLast '@' u.authority)),
   ("Content-Length", toString body.length)]

/-- The bytes of a request. -/
def requestBytes (method : String) (u : Uri) (headers : List (String × String)) (body : Bytes) :
    Bytes :=
  let first := method.toList ++ ' ' :: u.target ++ " HTTP/1.1".toList ++ lineBreak
  let lines := (ownHeaders u body ++ headers).flatMap headerLine
  Text.encode (first ++ lines ++ lineBreak) ++ body

/-! ### Lines -/

/-- The byte that ends a line. -/
def newline : UInt8 := 0x0A

/-- The byte that may stand before the end of a line. -/
def carriageReturn : UInt8 := 0x0D

/-- A line without the carriage return at its end. -/
def endedLine (line : Bytes) : Bytes :=
  if line.getLast? = some carriageReturn then line.dropLast else line

/-- The number that a byte is as a digit, in bases up to sixteen. -/
def digit? (b : UInt8) : Option Nat :=
  "0123456789abcdef".toList.findIdx? (· == (Char.ofNat b.toNat).toLower)

/-- The number that digits are in a base. -/
def number? (base : Nat) (digits : Bytes) : Option Nat :=
  if digits.isEmpty then none
  else digits.foldlM (fun n b => (digit? b).bind fun d =>
    if d < base then some (base * n + d) else none) 0

/-- What a line with a status code starts with. -/
def versions : List Bytes := ["HTTP/1.0 ", "HTTP/1.1 "].map fun v => Text.encode v.toList

/-- The status code of a line such as `HTTP/1.1 200 OK`. -/
def statusCode? (line : Bytes) : Option Nat :=
  let (version, rest) := line.splitAt 9
  let (digits, reason) := rest.splitAt 3
  if versions.contains version && digits.length == 3 && (reason.take 1).all (· == 0x20) &&
      reason.all isValueByte then
    (number? 10 digits).filter (leastCode ≤ ·)
  else none

/-- These bytes may stand behind the size of a chunk. -/
def isExtension (bs : Bytes) : Bool :=
  (bs.dropWhile isGap).head?.all (· == 0x3B)

/-- The size of a chunk, from its line with a carriage return at the end. -/
def chunkSize? (line : Bytes) : Option Nat :=
  if line.getLast? = some carriageReturn then
    let digits := line.dropLast.takeWhile fun b => (digit? b).isSome
    if isExtension (line.dropLast.dropWhile fun b => (digit? b).isSome) then
      (number? 16 digits).filter (· < Decimal.wordLimit)
    else none
  else none

/-! ### Answers -/

/-- The lines of an answer. -/
inductive Line where
  | status | header | chunkSize
  /-- The empty line behind the data of a chunk. -/
  | chunkEnd
  | trailer
  deriving DecidableEq, Repr

/-- What a receiver is in the middle of. -/
inductive Place where
  /-- A line, of which these bytes have come, newest first. -/
  | line (kind : Line) (done : Bytes)
  /-- The last `left + 1` bytes of the body. -/
  | counted (left : Nat)
  /-- The last `left + 1` bytes of a chunk. -/
  | chunk (left : Nat)
  /-- A body that goes on to the end of the connection. -/
  | toEnd
  /-- Behind the answer. -/
  | finished
  /-- Behind bytes that are no head of an answer. -/
  | refused
  /-- Behind a body that breaks off. -/
  | broken
  deriving DecidableEq, Repr

/-- Why a body breaks off. -/
def brokenReason : String := "error reading a body from connection"

/-- The most headers that an answer may have. -/
def headerLimit : Nat := 100

/-- An answer that is being received: its head as far as it has come. -/
structure Receiver where
  code : Nat
  headers : Headers
  place : Place
  deriving DecidableEq, Repr

namespace Receiver

/-- A receiver before the first byte. -/
def initial : Receiver := ⟨0, [], .line .status []⟩

/-- The head of the answer is complete. -/
def hasHead (r : Receiver) : Bool :=
  match r.place with
  | .line .status _ | .line .header _ | .refused => false
  | _ => true

/-- The answer is complete if the connection ends now. -/
def isComplete (r : Receiver) : Bool := r.place == .finished || r.place == .toEnd

/-- Nothing of the answer is still to come. -/
def isOver (r : Receiver) : Bool :=
  r.place == .finished || r.place == .refused || r.place == .broken

/-- Where a receiver is if data of this size are to come, and something else behind them. -/
def due (size : Nat) (data : Nat → Place) (behind : Place) : Place :=
  match size with
  | 0 => behind
  | n + 1 => data n

/-- What follows the head. -/
def afterHead (r : Receiver) : Receiver :=
  if isInterim r.code then initial
  else if isBodiless r.code then { r with place := .finished }
  else match r.headers.extent? with
    | some .chunked => { r with place := .line .chunkSize [] }
    | some (.counted n) => { r with place := due n .counted .finished }
    | some .toEnd => { r with place := .toEnd }
    | none => { r with place := .refused }

/-- A line of the head has come. -/
def takeHeader (r : Receiver) (line : Bytes) : Receiver :=
  if line.isEmpty then r.afterHead
  else match header? line with
    | some h =>
      if r.headers.length < headerLimit then
        { r with headers := r.headers ++ [h], place := .line .header [] }
      else { r with place := .refused }
    | none => { r with place := .refused }

/-- A line has come, perhaps with a carriage return at its end. Empty lines before an answer do not
count. -/
def take (r : Receiver) (line : Bytes) : Line → Receiver
  | .status =>
    if (endedLine line).isEmpty then initial
    else match statusCode? (endedLine line) with
      | some code => ⟨code, [], .line .header []⟩
      | none => { r with place := .refused }
  | .header => r.takeHeader (endedLine line)
  | .chunkSize =>
    match chunkSize? line with
    | some n => { r with place := due n .chunk (.line .trailer []) }
    | none => { r with place := .broken }
  | .chunkEnd =>
    { r with place := if line = [carriageReturn] then .line .chunkSize [] else .broken }
  | .trailer =>
    { r with place := if line = [carriageReturn] then .finished else .line .trailer [] }

/-- Receives one byte, which may be one of the body. -/
def step (r : Receiver) (b : UInt8) : Receiver × Option UInt8 :=
  match r.place with
  | .line kind done =>
    if b = newline then (r.take done.reverse kind, none)
    else ({ r with place := .line kind (b :: done) }, none)
  | .counted left => ({ r with place := due left .counted .finished }, some b)
  | .chunk left => ({ r with place := due left .chunk (.line .chunkEnd []) }, some b)
  | .toEnd => (r, some b)
  | .finished | .refused | .broken => (r, none)

/-- Receives bytes onto the ones of the body so far, which are newest first. -/
def feedOnto (r : Receiver) (body : Bytes) : Bytes → Receiver × Bytes
  | [] => (r, body.reverse)
  | b :: bs =>
    let (r, out) := r.step b
    r.feedOnto (out.toList ++ body) bs

/-- Receives bytes, and gives the ones of the body. -/
def feed (r : Receiver) (bs : Bytes) : Receiver × Bytes := r.feedOnto [] bs

/-- Receives bytes that come one part after the other, and gives the ones of the body in each. -/
def feedAll (r : Receiver) : List Bytes → Receiver × List Bytes
  | [] => (r, [])
  | bs :: rest =>
    let (r, body) := r.feed bs
    let (r, bodies) := r.feedAll rest
    (r, body :: bodies)

end Receiver

end Rollout.Http
