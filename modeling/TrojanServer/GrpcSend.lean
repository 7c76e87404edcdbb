import TrojanServer.GrpcCodec
import TrojanServer.StepMachine

/-!
The write side of `GrpcTransport`.  The calls on the HTTP/2 stream are recorded with
the results the stream gave, as for readers and writers: a poll takes its calls from
the front of a list, and is undefined if they are not the ones the code makes.
-/

namespace TrojanServer.GrpcSend

open TrojanServer.AsyncIo
open TrojanServer.GrpcCodec

def maxFrameSize : Nat := 64 * 1024

def defaultGrpcMaxMessageSize : Nat := 32 * 1024

def maxSendQueueBytes : Nat := 128 * 1024

structure H2Error where
  isRemote : Bool
  isIo : Bool
  message : String
  deriving DecidableEq

abbrev HeaderMap := List (String × String)

/-- One call on the response side of an HTTP/2 stream. -/
inductive H2Call where
  | sendResponse (headers : HeaderMap) (endOfStream : Bool) (result : Except H2Error Unit)
  | capacity (n : Nat)
  | reserveCapacity (n : Nat)
  | pollCapacity (result : Poll (Option (Except H2Error Nat)))
  | sendData (chunk : List UInt8) (result : Except H2Error Unit)
  | sendTrailers (trailers : HeaderMap) (result : Except H2Error Unit)
  deriving DecidableEq

inductive Responder where
  | pending
  | opened
  deriving DecidableEq

structure SendSide where
  responder : Responder
  sendQueue : List (List UInt8)
  sendQueueBytes : Nat
  currentFrame : Option (List UInt8)
  currentFrameOffset : Nat
  maxMessageSize : Nat
  writeClosed : Bool
  deriving DecidableEq

def SendSide.start (maxMessageSize : Nat) : SendSide where
  responder := .pending
  sendQueue := []
  sendQueueBytes := 0
  currentFrame := none
  currentFrameOffset := 0
  maxMessageSize := if maxMessageSize = 0 then defaultGrpcMaxMessageSize else maxMessageSize
  writeClosed := false

/-- A poll that has returned, with the calls it did not make. -/
structure Polled (α : Type) where
  state : SendSide
  result : Poll (Except IoError α)
  rest : List H2Call

/-- Go on once a poll is ready; a poll that is pending or has failed is returned. -/
def andThen (polled : Option (Polled Unit))
    (next : SendSide → List H2Call → Option (Polled Unit)) : Option (Polled Unit) :=
  match polled with
  | some ⟨s, .ready (.ok ()), calls⟩ => next s calls
  | other => other

def responseHeaders : HeaderMap :=
  [(":status", "200"), ("content-type", "application/grpc"),
    ("grpc-accept-encoding", "identity,deflate,gzip")]

def grpcStatus : HeaderMap := [("grpc-status", "0")]

namespace SendSide

/-- The data stream, sending the response headers first if needed. -/
def openStream (s : SendSide) (calls : List H2Call) : Option (Polled Unit) :=
  match s.responder with
  | .opened => some ⟨s, .ready (.ok ()), calls⟩
  | .pending =>
      match calls with
      | .sendResponse headers false result :: calls =>
          if headers = responseHeaders then
            match result with
            | .ok () => some ⟨{ s with responder := .opened }, .ready (.ok ()), calls⟩
            | .error e =>
                some ⟨s, .ready (.error ⟨.brokenPipe, "gRPC send response error: " ++ e.message⟩),
                  calls⟩
          else none
      | _ => none

def setOffset (s : SendSide) (offset : Nat) : SendSide := { s with currentFrameOffset := offset }

/-- The loop of `poll_send_current_frame`.  The offset is stored when the frame is
sent or has to wait, and not when the stream fails. -/
def sendLoop (s : SendSide) (frame : List UInt8) : List H2Call → Nat → Option (Polled Unit)
  | calls, offset =>
      let remaining := frame.length - offset
      if remaining = 0 then some ⟨s.setOffset offset, .ready (.ok ()), calls⟩
      else
        match calls with
        | .capacity 0 :: .reserveCapacity n :: .pollCapacity result :: calls =>
            if n = min remaining maxFrameSize then
              match result with
              | .ready (some (.ok _)) => sendLoop s frame calls offset
              | .ready (some (.error e)) =>
                  some ⟨s, .ready (.error ⟨.other, "gRPC capacity error: " ++ e.message⟩), calls⟩
              | .ready none =>
                  some ⟨s, .ready (.error ⟨.brokenPipe, "gRPC stream closed"⟩), calls⟩
              | .pending => some ⟨s.setOffset offset, .pending, calls⟩
            else none
        | .capacity (n + 1) :: .sendData chunk result :: calls =>
            let sendSize := min remaining (n + 1)
            if chunk = (frame.drop offset).take sendSize then
              match result with
              | .ok () => sendLoop s frame calls (offset + sendSize)
              | .error e =>
                  some ⟨s, .ready (.error ⟨.brokenPipe, "gRPC send error: " ++ e.message⟩), calls⟩
            else none
        | _ => none

def pollSendCurrentFrame (s : SendSide) (calls : List H2Call) : Option (Polled Unit) :=
  match s.currentFrame with
  | none => some ⟨s, .ready (.ok ()), calls⟩
  | some frame =>
      andThen (s.openStream calls) fun s calls => s.sendLoop frame calls s.currentFrameOffset

def clearFrame (s : SendSide) : SendSide := { s with currentFrame := none, currentFrameOffset := 0 }

/-- First half of a round of `poll_send_queued`: get rid of the current frame. -/
def finishFrame (s : SendSide) (calls : List H2Call) : Option (Polled Unit) :=
  match s.currentFrame with
  | none => some ⟨s, .ready (.ok ()), calls⟩
  | some frame =>
      if 0 < frame.length - s.currentFrameOffset then
        andThen (s.pollSendCurrentFrame calls) fun s calls =>
          some ⟨{ s.clearFrame with sendQueueBytes := s.sendQueueBytes - frame.length },
            .ready (.ok ()), calls⟩
      else some ⟨s.clearFrame, .ready (.ok ()), calls⟩

/-- The rounds of `poll_send_queued`, one for each frame of the queue and a last one. -/
def sendQueued : List (List UInt8) → SendSide → List H2Call → Option (Polled Unit)
  | [], s, calls => s.finishFrame calls
  | frame :: queue, s, calls =>
      andThen (s.finishFrame calls) fun s calls =>
        sendQueued queue
          { s with sendQueue := queue, currentFrame := some frame, currentFrameOffset := 0 } calls

def pollSendQueued (s : SendSide) (calls : List H2Call) : Option (Polled Unit) :=
  sendQueued s.sendQueue s calls

def push (s : SendSide) (frame : List UInt8) : SendSide :=
  { s with
    sendQueue := s.sendQueue ++ [frame]
    sendQueueBytes := s.sendQueueBytes + frame.length }

def pollWrite (s : SendSide) (buf : List UInt8) (calls : List H2Call) : Option (Polled Nat) :=
  if s.writeClosed then some ⟨s, .ready (.error ⟨.brokenPipe, "transport closed"⟩), calls⟩
  else
    match s.pollSendQueued calls with
    | none => none
    | some ⟨s, .ready (.error e), calls⟩ => some ⟨s, .ready (.error e), calls⟩
    | some ⟨s, _, calls⟩ =>
        if maxSendQueueBytes ≤ s.sendQueueBytes then some ⟨s, .pending, calls⟩
        else
          let toWrite := min buf.length s.maxMessageSize
          match (s.push (encodeGrpcMessage (buf.take toWrite))).pollSendQueued calls with
          | none => none
          | some ⟨s, .ready (.error e), calls⟩ => some ⟨s, .ready (.error e), calls⟩
          | some ⟨s, _, calls⟩ => some ⟨s, .ready (.ok toWrite), calls⟩

def pollFlush (s : SendSide) (calls : List H2Call) : Option (Polled Unit) := s.pollSendQueued calls

/-- The last call of a shutdown. -/
def finish (s : SendSide) (calls : List H2Call) : Option (Polled Unit) :=
  let close (result : Except H2Error Unit) (calls : List H2Call) : Polled Unit :=
    match result with
    | .ok () => ⟨s, .ready (.ok ()), calls⟩
    | .error e =>
        if e.isRemote || e.isIo then ⟨s, .ready (.ok ()), calls⟩
        else ⟨s, .ready (.error ⟨.other, "gRPC send trailers error: " ++ e.message⟩), calls⟩
  match s.responder, calls with
  | .opened, .sendTrailers trailers result :: calls =>
      if trailers = grpcStatus then some (close result calls) else none
  -- nothing was ever written: a trailers-only response
  | .pending, .sendResponse headers true result :: calls =>
      if headers = responseHeaders ++ grpcStatus then some (close result calls) else none
  | _, _ => none

def pollShutdown (s : SendSide) (calls : List H2Call) : Option (Polled Unit) :=
  if s.writeClosed && s.sendQueue.isEmpty && s.currentFrame.isNone then
    some ⟨s, .ready (.ok ()), calls⟩
  else
    andThen ({ s with writeClosed := true }.pollFlush calls) fun s calls => s.finish calls

end SendSide

inductive SendOp where
  | write (buf : List UInt8)
  | flush
  | shutdown
  deriving DecidableEq

inductive Answer where
  | wrote (result : Poll (Except IoError Nat))
  | done (result : Poll (Except IoError Unit))
  deriving DecidableEq

/-- One poll of the transport with the calls it makes. -/
def SendSide.step (s : SendSide) (input : SendOp × List H2Call) : Option (SendSide × Answer) :=
  match input.1 with
  | .write buf =>
      match s.pollWrite buf input.2 with
      | some ⟨s, result, []⟩ => some (s, .wrote result)
      | _ => none
  | .flush =>
      match s.pollFlush input.2 with
      | some ⟨s, result, []⟩ => some (s, .done result)
      | _ => none
  | .shutdown =>
      match s.pollShutdown input.2 with
      | some ⟨s, result, []⟩ => some (s, .done result)
      | _ => none

abbrev Trace := List ((SendOp × List H2Call) × Answer)

end TrojanServer.GrpcSend
