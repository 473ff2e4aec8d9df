import HipBridge.Daemon.HandleRequest
import HipBridge.Lib.Run

/-!
# The shared connection of the bridge

`call_bridge` of `hip-stub` on one end of a TCP stream, `handle_client` of the daemon on the
other. Bytes move one at a time, in order, in each direction; every order of the two sides'
steps is a run, and a read or write may fail at any point of it.

* **`Connection`** — the mutex and what is behind it, the bytes under way in the two
  directions, the daemon's thread, and what was observed so far.
* **`step`** — one step of a client thread or of the daemon.
* **`Paired`** — every answer a call returned is the daemon's response to that call.
* **`QuietAfterFailure`** — nothing is read from or written to a connection that failed.
-/

namespace HipBridge.Bridge

open Lib Protocol Daemon

/-- Where the thread inside `call_bridge` is. No thread is while the mutex is free. -/
inductive ClientPhase (T : Type)
  | idle
  | writing (thread : T) (req : Request) (left : List UInt8)
  | reading (thread : T) (req : Request) (got : List UInt8)
  /-- The process is gone: `hip-stub` is built with `panic = "abort"`. -/
  | aborted

/-- Where the daemon's thread is in the loop of `handle_client`. -/
inductive DaemonPhase
  | reading (got : List UInt8)
  | writing (left : List UInt8)
  /-- The loop has ended and the stream is dropped. -/
  | closed

/-- How a call of `call_bridge` ended. -/
inductive Outcome
  | notConnected
  | writeFailed (e : IoError)
  | readFailed (e : IoError)
  | answered (result : Except String (List UInt8))

/-- What the client did to its end of the connection. -/
inductive ClientIo
  | wrote (b : UInt8)
  | read (b : UInt8)
  | failed
deriving DecidableEq

/-- The two ends of the connection and the bytes in between. The last four fields record what
happened: the calls in the order they took the mutex, their outcomes in the order they
returned, the requests the daemon served with its responses, and the client's reads and
writes. -/
structure Connection (T D : Type) where
  /-- The `Option` behind the mutex of `bridge()`. -/
  connected : Bool
  client : ClientPhase T
  toDaemon : List UInt8
  toClient : List UInt8
  daemonPhase : DaemonPhase
  daemon : DaemonState D
  calls : List (T × Request)
  returned : List (T × Request × Outcome)
  served : List (Request × Response)
  io : List ClientIo

namespace Connection

variable {T D : Type}

/-- Before the first call; `TcpStream::connect` may have failed. -/
def new (connected : Bool) (daemon : DaemonState D) : Connection T D where
  connected := connected
  client := .idle
  toDaemon := []
  toClient := []
  daemonPhase := .reading []
  daemon := daemon
  calls := []
  returned := []
  served := []
  io := []

end Connection

/-- What may happen next. -/
inductive Action (T D : Type)
  /-- A thread that called `call_bridge(req)` gets the mutex. -/
  | call (thread : T) (req : Request)
  | clientWrites
  | clientReads
  /-- The read or write the client is at fails. -/
  | clientFails (e : IoError)
  | daemonReads
  | daemonWrites
  /-- The read or write the daemon is at fails. -/
  | daemonFails
  /-- Requests on other connections change the daemon's tables. -/
  | elsewhere (daemon : DaemonState D)

/-- More bytes are needed: on an open connection `read_exact` waits for them. -/
def needsMore : Fault → Bool
  | .io e => e.kind = .unexpectedEof
  | .panic _ => false
  | .abort _ => false

section Step

variable {T D : Type} (hip : HipLib D) (s : Connection T D)

/-- `call_bridge` returns, and the guard is dropped. -/
def finish (thread : T) (req : Request) (outcome : Outcome) : Connection T D :=
  { s with client := .idle, returned := s.returned ++ [(thread, req, outcome)] }

/-- `*guard = None`, and `call_bridge` returns. -/
def poison (thread : T) (req : Request) (outcome : Outcome) : Connection T D :=
  finish { s with connected := false, io := s.io ++ [.failed] } thread req outcome

/-- `call_bridge` up to the first byte it writes. -/
def beginCall (thread : T) (req : Request) : Connection T D :=
  let s := { s with calls := s.calls ++ [(thread, req)] }
  if s.connected then { s with client := .writing thread req req.writeTo }
  else finish s thread req .notConnected

/-- `req.write_to(stream)` hands over its next byte. -/
def writeByte (thread : T) (req : Request) (b : UInt8) (left : List UInt8) : Connection T D :=
  { s with
    client := if left = [] then .reading thread req [] else .writing thread req left
    toDaemon := s.toDaemon ++ [b]
    io := s.io ++ [.wrote b] }

/-- `Response::read_from(stream)` takes a byte, and returns as soon as it has a result. -/
def readByte (thread : T) (req : Request) (got : List UInt8) (b : UInt8)
    (toClient : List UInt8) : Connection T D :=
  let s := { s with toClient, io := s.io ++ [.read b] }
  match Response.readFrom (got ++ [b]) with
  -- an answer, and a message of the daemon's, leave the connection in place
  | .ok (resp, _) => finish s thread req (.answered resp.intoResult)
  | .error (.io e) =>
    if needsMore (.io e) then { s with client := .reading thread req (got ++ [b]) }
    else poison s thread req (.readFailed e)
  | .error _ => { s with client := .aborted }

/-- `Request::read_from(&mut stream)` takes a byte; a request it completes is served. -/
def serveByte (got : List UInt8) (b : UInt8) (toDaemon : List UInt8) : Connection T D :=
  let s := { s with toDaemon }
  match Request.readFrom (got ++ [b]) with
  | .ok (req, _) =>
    match handleRequest hip s.daemon req with
    | .ok (resp, daemon) =>
      { s with daemon, served := s.served ++ [(req, resp)], daemonPhase := .writing resp.writeTo }
    -- the daemon's process is gone, and its end of the stream with it
    | .error _ => { s with daemonPhase := .closed }
  | .error fault =>
    if needsMore fault then { s with daemonPhase := .reading (got ++ [b]) }
    else { s with daemonPhase := .closed }

/-- One step. A step that cannot be taken where the two sides are changes nothing. -/
def step : Action T D → Connection T D
  | .call thread req =>
    match s.client with
    | .idle => beginCall s thread req
    | _ => s
  | .clientWrites =>
    match s.client with
    | .writing thread req (b :: left) => writeByte s thread req b left
    | _ => s
  | .clientReads =>
    match s.client, s.toClient with
    | .reading thread req got, b :: toClient => readByte s thread req got b toClient
    | _, _ => s
  | .clientFails e =>
    match s.client with
    | .writing thread req _ => poison s thread req (.writeFailed e)
    | .reading thread req _ => poison s thread req (.readFailed e)
    | _ => s
  | .daemonReads =>
    match s.daemonPhase, s.toDaemon with
    | .reading got, b :: toDaemon => serveByte hip s got b toDaemon
    | _, _ => s
  | .daemonWrites =>
    match s.daemonPhase with
    | .writing (b :: left) =>
      { s with
        daemonPhase := if left = [] then .reading [] else .writing left
        toClient := s.toClient ++ [b] }
    | _ => s
  | .daemonFails => { s with daemonPhase := .closed }
  | .elsewhere daemon => { s with daemon }

end Step

variable {T D : Type}

/-- The calls return in the order they took the mutex, and a call that was answered was answered
with the response the daemon gave to that very request. -/
def Paired (s : Connection T D) : Prop :=
  ∀ (n : Nat) thread req result, s.returned[n]? = some (thread, req, .answered result) →
    s.calls[n]? = some (thread, req) ∧
    ∃ resp, s.served[n]? = some (req, resp) ∧ resp.intoResult = result

/-- A failed read or write is the last thing the client does to its end of the connection. -/
def QuietAfterFailure (s : Connection T D) : Prop :=
  ∀ pre post, s.io = pre ++ .failed :: post → post = []

end HipBridge.Bridge
