import TrojanServer.Relay
import TrojanServer.RequestReader

/-!
A CONNECT session from its first byte: `read_trojan_request`, the hand-over of the
payload to `handle_connect`, and `ConnectContext::relay`, which writes the payload to
the remote and then relays.  Authentication, routing and dialling are one event here,
and so is whatever ends the session early.
-/

namespace TrojanServer.ConnectSession

open TrojanServer.AsyncIo
open TrojanServer.Relay
open TrojanServer.RequestReader

inductive Session where
  | reading (reader : Reader)
  | requested (initialPayload : List UInt8)
  | writing (user : UserId) (rest : List UInt8)
  | relaying (user : UserId) (relay : RelayFuture)
  | closed
  deriving DecidableEq

/-- A read of the request, the remote being connected for a user, one `poll_write` of
`write_all`, one poll of the relay, or a timeout, a refusal or a kick. -/
inductive Event where
  | read (result : Except IoError (List UInt8))
  | connected (user : UserId) (now : Nat)
  | write (now : Nat) (slice : List UInt8) (result : Poll (Except IoError Nat))
  | poll (calls : PollCalls)
  | close
  deriving DecidableEq

def relayConfig (cfg : RelayConfig) (user : UserId) : RelayConfig := { cfg with stats := some user }

/-- The relay creates its timers in its first poll, at `now`. -/
def startRelay (cfg : RelayConfig) (user : UserId) (now : Nat) : Session :=
  .relaying user (RelayFuture.start (relayConfig cfg user) now)

/-- What `process_connection` does with the end of `read_trojan_request`. -/
def afterRead (r : Reader) : Session :=
  match r.outcome with
  | none => .reading r
  | some (.request request) =>
      match request.cmd with
      | .connect => .requested request.payload
      -- a session of the other kind
      | .udpAssociate => .closed
  | some _ => .closed

def Session.step (cfg : RelayConfig) (s : Session) (event : Event) :
    Option (Session × List Effect) :=
  match s, event with
  | .reading r, .read result =>
      (r.step cfg.bufferSize result).map fun step => (afterRead step.1, [])
  | .requested initialPayload, .connected user now =>
      if initialPayload.isEmpty then some (startRelay cfg user now, [])
      else some (.writing user initialPayload, [.recordUpload user initialPayload.length])
  | .writing user rest, .write now slice result =>
      if slice = rest then
        match result with
        | .pending => some (.writing user rest, [])
        | .ready (.error _) => some (.closed, [])
        | .ready (.ok n) =>
            if n = 0 then some (.closed, [])
            else if n < slice.length then some (.writing user (rest.drop n), [])
            else if n = slice.length then some (startRelay cfg user now, [])
            else none
      else none
  | .relaying user r, .poll calls =>
      (r.step (relayConfig cfg user) calls).map fun step => (.relaying user step.1, step.2)
  | .closed, .close => none
  | _, .close => some (.closed, [])
  | _, _ => none

def Session.start : Session := .reading Reader.start

abbrev Trace := List (Event × List Effect)

/-- The polls of the relay among the events of a session. -/
def relayTrace (trace : Trace) : Relay.Trace :=
  trace.filterMap fun entry =>
    match entry.1 with
    | .poll calls => some (calls, entry.2)
    | _ => none

def Event.received : Event → List UInt8
  | .read (.ok bytes) => bytes
  | .poll calls => returnedBytes calls.up
  | _ => []

/-- The bytes the client's stream has returned. -/
def clientBytes (trace : Trace) : List UInt8 := trace.flatMap fun entry => entry.1.received

def Event.accepted : Event → List UInt8
  | .write _ slice (.ready (.ok n)) => slice.take n
  | .poll calls => acceptedBytes calls.up
  | _ => []

/-- The bytes the remote's writer has accepted. -/
def forwarded (trace : Trace) : List UInt8 := trace.flatMap fun entry => entry.1.accepted

end TrojanServer.ConnectSession
