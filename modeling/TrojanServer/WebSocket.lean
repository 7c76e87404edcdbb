import TrojanServer.AsyncIo
import TrojanServer.StepMachine

/-!
The transport of `transport/ws.rs`.  The WebSocket stream under it is the sequence of
results its `poll_next` is going to give, and has nothing more to say after them; of a
message only the payload of a binary one is kept.  The sink answers at every operation
anew: an operation calls each of its methods at most once.
-/

namespace TrojanServer.WebSocket

open TrojanServer.AsyncIo
open TrojanServer.StepMachine

inductive Message where
  | text
  | binary (data : List UInt8)
  | ping
  | pong
  | close
  | frame
  deriving Repr, DecidableEq

/-- The errors of the WebSocket library, the ones told apart and the others as they are
printed. -/
inductive WsError where
  | connectionClosed
  | alreadyClosed
  | other (text : String)
  deriving Repr, DecidableEq

abbrev NextResult := Poll (Option (Except WsError Message))

abbrev ReadResult := Poll (Except IoError (List UInt8))

structure WebSocketTransport where
  wsStream : List NextResult
  readBuffer : List UInt8
  readPos : Nat
  readClosed : Bool
  writeClosed : Bool
  deriving DecidableEq

def withEarlyData (wsStream : List NextResult) (early : List UInt8) : WebSocketTransport where
  wsStream := wsStream
  readBuffer := early
  readPos := 0
  readClosed := false
  writeClosed := false

namespace WebSocketTransport

def readError : WsError → Except IoError (List UInt8)
  | .connectionClosed => .ok []
  | .alreadyClosed => .ok []
  | .other text => .error ⟨.connectionReset, "WebSocket read error: " ++ text⟩

/-- The loop over `poll_next`. -/
def pollNext (t : WebSocketTransport) (room : Nat) :
    List NextResult → ReadResult × WebSocketTransport
  | [] => (.pending, { t with wsStream := [] })
  | .pending :: rest => (.pending, { t with wsStream := rest })
  | .ready none :: rest => (.ready (.ok []), { t with wsStream := rest, readClosed := true })
  | .ready (some (.error e)) :: rest =>
      (.ready (readError e), { t with wsStream := rest, readClosed := true })
  | .ready (some (.ok (.binary data))) :: rest =>
      if data.isEmpty then t.pollNext room rest
      else
        let toCopy := min data.length room
        let t := { t with wsStream := rest }
        (.ready (.ok (data.take toCopy)),
          if toCopy < data.length then { t with readBuffer := data.drop toCopy, readPos := 0 }
          else t)
  | .ready (some (.ok .close)) :: rest =>
      (.ready (.ok []), { t with wsStream := rest, readClosed := true })
  | .ready (some (.ok _)) :: rest => t.pollNext room rest

/-- `room` is what is free in the caller's buffer, and the bytes are those put there. -/
def pollRead (t : WebSocketTransport) (room : Nat) : ReadResult × WebSocketTransport :=
  if t.readClosed then (.ready (.ok []), t)
  else if t.readPos < t.readBuffer.length then
    let remaining := t.readBuffer.drop t.readPos
    let toCopy := min remaining.length room
    let t := { t with readPos := t.readPos + toCopy }
    (.ready (.ok (remaining.take toCopy)),
      if t.readBuffer.length ≤ t.readPos then { t with readBuffer := [], readPos := 0 } else t)
  else t.pollNext room t.wsStream

end WebSocketTransport

/-- What the sink is going to say if it is asked. -/
structure SinkAnswers where
  pollReady : Poll (Except WsError Unit)
  startSend : Except WsError Unit
  pollFlush : Poll (Except WsError Unit)
  deriving DecidableEq

inductive SinkCall where
  | pollReady (result : Poll (Except WsError Unit))
  | startSend (message : Message) (result : Except WsError Unit)
  | pollFlush (result : Poll (Except WsError Unit))
  deriving DecidableEq

namespace WebSocketTransport

variable (t : WebSocketTransport) (sink : SinkAnswers)

def pollWrite (buf : List UInt8) : Poll (Except IoError Nat) × List SinkCall :=
  if t.writeClosed || t.readClosed then (.ready (.error ⟨.brokenPipe, "WebSocket closed"⟩), [])
  else
    match sink.pollReady with
    | .ready (.ok ()) =>
        (match sink.startSend with
          | .ok () => .ready (.ok buf.length)
          | .error _ => .ready (.error ⟨.brokenPipe, "WebSocket send error"⟩),
          [.pollReady sink.pollReady, .startSend (.binary buf) sink.startSend])
    | .ready (.error _) =>
        (.ready (.error ⟨.brokenPipe, "WebSocket error"⟩), [.pollReady sink.pollReady])
    | .pending => (.pending, [.pollReady sink.pollReady])

/-- After the peer's close the library reports the connection as closed, which is no failure. -/
def flushResult : Poll (Except WsError Unit) → Poll (Except IoError Unit)
  | .ready (.error .connectionClosed) => .ready (.ok ())
  | .ready (.error .alreadyClosed) => .ready (.ok ())
  | .ready (.error (.other text)) =>
      .ready (.error ⟨.brokenPipe, "WebSocket flush error: " ++ text⟩)
  | .ready (.ok ()) => .ready (.ok ())
  | .pending => .pending

def pollFlush : Poll (Except IoError Unit) × List SinkCall :=
  (flushResult sink.pollFlush, [.pollFlush sink.pollFlush])

def pollShutdown : (Poll (Except IoError Unit) × List SinkCall) × WebSocketTransport :=
  if t.writeClosed then (pollFlush sink, t)
  else
    let closed := { t with writeClosed := true }
    let flush := pollFlush sink
    match sink.pollReady with
    | .ready (.ok ()) =>
        ((flush.1, .pollReady sink.pollReady :: .startSend .close sink.startSend :: flush.2),
          closed)
    | .ready (.error _) => ((flush.1, .pollReady sink.pollReady :: flush.2), closed)
    | .pending => ((.pending, [.pollReady sink.pollReady]), t)

end WebSocketTransport

inductive Operation where
  | pollRead (room : Nat)
  | pollWrite (buf : List UInt8)
  | pollFlush
  | pollShutdown
  deriving DecidableEq

inductive OperationResult where
  | read (result : ReadResult)
  | written (result : Poll (Except IoError Nat))
  | flushed (result : Poll (Except IoError Unit))
  | shutdown (result : Poll (Except IoError Unit))
  deriving DecidableEq

/-- One operation on the transport, with its result and the calls it made on the sink. -/
def step (t : WebSocketTransport) :
    Operation × SinkAnswers → Option (WebSocketTransport × (OperationResult × List SinkCall))
  | (.pollRead room, _) =>
      let polled := t.pollRead room
      some (polled.2, .read polled.1, [])
  | (.pollWrite buf, sink) =>
      let polled := t.pollWrite sink buf
      some (t, .written polled.1, polled.2)
  | (.pollFlush, sink) =>
      let polled := WebSocketTransport.pollFlush sink
      some (t, .flushed polled.1, polled.2)
  | (.pollShutdown, sink) =>
      let polled := t.pollShutdown sink
      some (polled.2, .shutdown polled.1.1, polled.1.2)

abbrev History := List ((Operation × SinkAnswers) × (OperationResult × List SinkCall))

/-- One call of `poll_read`, with its result. -/
def readStep (t : WebSocketTransport) (room : Nat) : Option (WebSocketTransport × ReadResult) :=
  some ((t.pollRead room).2, (t.pollRead room).1)

abbrev Trace := List (Nat × ReadResult)

def returnedBytes : ReadResult → List UInt8
  | .ready (.ok bytes) => bytes
  | _ => []

def delivered (trace : Trace) : List UInt8 := trace.flatMap fun call => returnedBytes call.2

end TrojanServer.WebSocket
