import TrojanServer.GrpcCodec
import TrojanServer.StepMachine

/-!
The read side of `GrpcTransport`.  The HTTP/2 stream under it holds the DATA chunks
that have arrived and were not yet taken, and counts the window given back;
`poll_read` moves bytes from there through `read_pending` and `read_buf` to the
caller.
-/

namespace TrojanServer.GrpcReceive

open TrojanServer.AsyncIo
open TrojanServer.GrpcCodec

def maxInboundFrameLen : Nat := 256 * 1024

inductive Reason where
  | noError
  | cancel
  | other
  deriving DecidableEq

structure StreamError where
  reason : Option Reason
  message : String
  deriving DecidableEq

def isNormalStreamClose (error : StreamError) : Bool :=
  error.reason = some .noError || error.reason = some .cancel

/-- The receiving half of an HTTP/2 stream: what has arrived, whether and how the
peer has ended it, and the sum of all `release_capacity` calls. -/
structure RecvStream where
  chunks : List (List UInt8)
  ended : Option (Except StreamError Unit)
  released : Nat
  deriving DecidableEq

def RecvStream.pollData (r : RecvStream) :
    Poll (Option (Except StreamError (List UInt8))) × RecvStream :=
  match r.chunks with
  | chunk :: chunks => (.ready (some (.ok chunk)), { r with chunks := chunks })
  | [] =>
      match r.ended with
      | none => (.pending, r)
      | some (.ok ()) => (.ready none, r)
      | some (.error e) => (.ready (some (.error e)), r)

structure ReadSide where
  recvStream : RecvStream
  readPending : List UInt8
  readBuf : List UInt8
  readPos : Nat
  pendingReleaseCapacity : Nat
  activity : Option Bool
  readClosed : Bool
  deriving DecidableEq

def ReadSide.start (activity : Option Bool) : ReadSide where
  recvStream := ⟨[], none, 0⟩
  readPending := []
  readBuf := []
  readPos := 0
  pendingReleaseCapacity := 0
  activity := activity
  readClosed := false

abbrev ReadResult := Poll (Except IoError (List UInt8))

namespace ReadSide

/-- Give back the window of a frame that was taken out of `readPending`. -/
def consumed (t : ReadSide) (n : Nat) (rest : List UInt8) : ReadSide :=
  let toRelease := min t.pendingReleaseCapacity n
  { t with
    readPending := rest
    recvStream := { t.recvStream with released := t.recvStream.released + toRelease }
    pendingReleaseCapacity := t.pendingReleaseCapacity - toRelease }

def received (t : ReadSide) (chunk : List UInt8) (r : RecvStream) : ReadSide :=
  { t with
    recvStream := r
    readPending := t.readPending ++ chunk
    pendingReleaseCapacity := t.pendingReleaseCapacity + chunk.length
    activity := t.activity.map fun _ => true }

/-- Hand out a payload; what does not fit waits in `readBuf`. -/
def deliver (t : ReadSide) (payload : List UInt8) (room : Nat) : ReadSide × ReadResult :=
  let toCopy := min payload.length room
  if toCopy < payload.length then
    ({ t with readBuf := payload.drop toCopy, readPos := 0 }, .ready (.ok (payload.take toCopy)))
  else (t, .ready (.ok (payload.take toCopy)))

def close (t : ReadSide) (result : Except IoError (List UInt8)) : ReadSide × ReadResult :=
  ({ t with readClosed := true }, .ready result)

/-- The declared length of the frame at the front, if it exceeds the limit. -/
def oversized (t : ReadSide) : Option Nat :=
  match declaredFrameLen t.readPending with
  | some declared => if maxInboundFrameLen < declared then some declared else none
  | none => none

def pollReadLoop : Nat → ReadSide → Nat → ReadSide × ReadResult
  | 0, t, _ => (t, .pending)
  | fuel + 1, t, room =>
      match t.oversized with
      | some declared =>
          t.close (.error ⟨.invalidData, "gRPC frame length " ++ toString declared ++
            " exceeds limit " ++ toString maxInboundFrameLen⟩)
      | none =>
          match parseGrpcMessageZerocopy t.readPending with
          | (.ok (some (payload, n)), rest) =>
              -- an empty hunk is skipped, a read of 0 bytes would look like EOF
              if payload.isEmpty then pollReadLoop fuel (t.consumed n rest) room
              else (t.consumed n rest).deliver payload room
          | (.error e, rest) => ({ t with readPending := rest }, .ready (.error e))
          | (.ok none, rest) =>
              let t := { t with readPending := rest }
              match t.recvStream.pollData with
              | (.ready (some (.ok chunk)), r) => pollReadLoop fuel (t.received chunk r) room
              | (.ready (some (.error e)), r) =>
                  let t := { t with recvStream := r }
                  if isNormalStreamClose e && t.readPending.isEmpty then t.close (.ok [])
                  else if isNormalStreamClose e then
                    t.close (.error ⟨.unexpectedEof, "gRPC stream closed mid-frame"⟩)
                  else t.close (.error ⟨.other, "gRPC recv error: " ++ e.message⟩)
              | (.ready none, r) =>
                  let t := { t with recvStream := r }
                  if !t.readPending.isEmpty then
                    t.close (.error ⟨.unexpectedEof, "gRPC stream ended mid-frame"⟩)
                  else t.close (.ok [])
              | (.pending, r) => ({ t with recvStream := r }, .pending)

/-- Every round of the loop takes a chunk or at least five bytes of a frame. -/
def rounds (t : ReadSide) : Nat :=
  t.readPending.length + t.recvStream.chunks.flatten.length + t.recvStream.chunks.length + 1

def pollRead (t : ReadSide) (room : Nat) : ReadSide × ReadResult :=
  if t.readClosed then (t, .ready (.ok []))
  else if t.readPos < t.readBuf.length then
    let remaining := t.readBuf.drop t.readPos
    let toCopy := min remaining.length room
    let pos := t.readPos + toCopy
    if t.readBuf.length ≤ pos then
      ({ t with readBuf := [], readPos := 0 }, .ready (.ok (remaining.take toCopy)))
    else ({ t with readPos := pos }, .ready (.ok (remaining.take toCopy)))
  else pollReadLoop t.rounds t room

end ReadSide

/-- The peer sends on the stream, or the transport is read with a buffer that has
room for so many bytes. -/
inductive Event where
  | data (chunk : List UInt8)
  | endStream
  | reset (error : StreamError)
  | read (room : Nat)
  deriving DecidableEq

def ReadSide.arrive (t : ReadSide) (r : RecvStream) : ReadSide := { t with recvStream := r }

def ReadSide.step (t : ReadSide) (event : Event) : Option (ReadSide × Option ReadResult) :=
  match event with
  | .read room => some ((t.pollRead room).1, some (t.pollRead room).2)
  | .data chunk =>
      match t.recvStream.ended with
      | none =>
          some (t.arrive { t.recvStream with chunks := t.recvStream.chunks ++ [chunk] }, none)
      | some _ => none
  | .endStream =>
      match t.recvStream.ended with
      | none => some (t.arrive { t.recvStream with ended := some (.ok ()) }, none)
      | some _ => none
  | .reset error =>
      match t.recvStream.ended with
      | none => some (t.arrive { t.recvStream with ended := some (.error error) }, none)
      | some _ => none

abbrev Trace := List (Event × Option ReadResult)

end TrojanServer.GrpcReceive
