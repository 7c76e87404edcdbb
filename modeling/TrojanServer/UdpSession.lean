import TrojanServer.AsyncIo
import TrojanServer.FrameDecoding
import TrojanServer.UdpAssociate

/-!
The loop of `handle_udp_associate`.  An event is one round of its `select!`: the
read branch with the buffered initial payload or with the result of a read, a
datagram from the outbound, a tick of the idle timer, or the kick.  What the world
answers while packets are handled is given by the number of the packet.
-/

namespace TrojanServer.UdpSession

open TrojanServer.AsyncIo
open TrojanServer.FrameDecoding
open TrojanServer.Hooks
open TrojanServer.IpText
open TrojanServer.Protocol
open TrojanServer.UdpAssociate

def udpMaxReadBufferSize : Nat := 64 * 1024

/-- What the router, the dial, the write and the clock answer for one packet. -/
structure Answer (H : Type) where
  routed : OutboundType H
  dial : Except String Unit
  write : Except String Nat
  now : Nat

structure World (H : Type) where
  outbounds : Outbounds H
  answers : Nat → Answer H
  idleTimeoutSecs : Nat

inductive SessionEnd where
  | disconnected
  | readBufferExceeded
  | readError
  | invalidPacket (message : String)
  | sendErrors
  | responseFailed
  | recvErrors
  | idleTimeout
  | kicked
  deriving DecidableEq

structure Session (H : Type) where
  readBuf : List UInt8
  pendingBuffered : Bool
  assoc : Association H
  handled : Nat
  lastActivitySecs : Nat
  recvErrors : Nat
  ended : Option SessionEnd
  deriving DecidableEq

def Session.start (H : Type) (initialPayload : List UInt8) : Session H where
  readBuf := initialPayload
  pendingBuffered := !initialPayload.isEmpty
  assoc := Association.start H
  handled := 0
  lastActivitySecs := 0
  recvErrors := 0
  ended := none

/-- A round of `select!`.  `read` is the read branch when nothing is pending in the
buffer, with the result the stream gives if it is asked. -/
inductive Event where
  | buffered
  | read (result : Except IoError (List UInt8))
  | reply (received : Except String (List UInt8 × AclAddr)) (written : Except String Unit)
      (now : Nat)
  | idleTick (now : Nat)
  | kicked
  deriving DecidableEq

/-- What a round did: the bytes it took from the client, the packets it decoded, and
the bytes it wrote to the client. -/
structure Round (H : Type) where
  received : List UInt8
  packets : List (TrojanUdpPacket × PacketLog H)
  response : List UInt8
  deriving DecidableEq

abbrev Trace (H : Type) := List (Event × Round H)

/-- The bytes read from the client after the initial payload. -/
def received {H : Type} (trace : Trace H) : List UInt8 :=
  trace.flatMap fun event => event.2.received

def decoded {H : Type} (trace : Trace H) : List TrojanUdpPacket :=
  trace.flatMap fun event => event.2.packets.map Prod.fst

@[simp] theorem received_snoc {H : Type} (trace : Trace H) (event : Event) (round : Round H) :
    received (trace ++ [(event, round)]) = received trace ++ round.received := by
  simp [received]

@[simp] theorem decoded_snoc {H : Type} (trace : Trace H) (event : Event) (round : Round H) :
    decoded (trace ++ [(event, round)]) = decoded trace ++ round.packets.map Prod.fst := by
  simp [decoded]

variable {H : Type} [DecidableEq H]

def aclAddrToAddress (addr : AclAddr) : Address :=
  match parseIpAddr addr.host with
  | some ip => .fromIp ip addr.port
  | none => .domain addr.host addr.port

/-- The loop over the packets in the buffer. -/
def processPackets (w : World H) :
    Nat → Session H → Session H × List (TrojanUdpPacket × PacketLog H)
  | 0, s => (s, [])
  | fuel + 1, s =>
      if s.readBuf.isEmpty then (s, [])
      else
        match TrojanUdpPacket.decodeZerocopy s.readBuf with
        | (.needMoreData, rest) => ({ s with readBuf := rest }, [])
        | (.invalid message, rest) =>
            ({ s with readBuf := rest, ended := some (.invalidPacket message) }, [])
        | (.ok packet _, rest) =>
            let answer := w.answers s.handled
            match s.assoc.step w.outbounds ⟨packet, answer.routed, answer.dial, answer.write⟩ with
            | none => ({ s with ended := some .sendErrors }, [])
            | some (assoc, log) =>
                let s' := { s with
                  readBuf := rest
                  assoc := assoc
                  handled := s.handled + 1
                  -- only a datagram that was forwarded counts as activity
                  lastActivitySecs := if log.upload.isSome then answer.now else s.lastActivitySecs }
                if assoc.giveUp then ({ s' with ended := some .sendErrors }, [(packet, log)])
                else
                  let r := processPackets w fuel s'
                  (r.1, (packet, log) :: r.2)

def Session.process (w : World H) (s : Session H) (received : List UInt8) :
    Session H × Round H :=
  let r := processPackets w s.readBuf.length s
  (r.1, ⟨received, r.2, []⟩)

def Session.quit (s : Session H) (cause : SessionEnd) : Session H × Round H :=
  ({ s with ended := some cause }, ⟨[], [], []⟩)

def Session.read (w : World H) (s : Session H) (result : Except IoError (List UInt8)) :
    Session H × Round H :=
  if udpMaxReadBufferSize ≤ s.readBuf.length then s.quit .readBufferExceeded
  else
    match result with
    | .error _ => s.quit .readError
    | .ok [] => s.quit .disconnected
    | .ok bytes => { s with readBuf := s.readBuf ++ bytes }.process w bytes

def Session.reply (s : Session H) (received : Except String (List UInt8 × AclAddr))
    (written : Except String Unit) (now : Nat) : Session H × Round H :=
  match received with
  | .ok (payload, fromAddr) =>
      let response := TrojanUdpPacket.encode (aclAddrToAddress fromAddr) payload
      match written with
      | .ok () => ({ s with lastActivitySecs := now, recvErrors := 0 }, ⟨[], [], response⟩)
      | .error _ => ({ s with ended := some .responseFailed }, ⟨[], [], response⟩)
  | .error _ =>
      let s' := { s with recvErrors := s.recvErrors + 1 }
      if udpMaxConsecutiveErrors ≤ s'.recvErrors then s'.quit .recvErrors
      else (s', ⟨[], [], []⟩)

def Session.step (w : World H) (s : Session H) (event : Event) : Option (Session H × Round H) :=
  match s.ended with
  | some _ => none
  | none =>
      match event with
      | .buffered =>
          if s.pendingBuffered then some ({ s with pendingBuffered := false }.process w [])
          else none
      | .read result => if s.pendingBuffered then none else some (s.read w result)
      | .reply received written now =>
          -- without a connection the branch never completes
          if s.assoc.udpConn.isSome then some (s.reply received written now) else none
      | .idleTick now =>
          if w.idleTimeoutSecs ≤ now - s.lastActivitySecs then some (s.quit .idleTimeout)
          else some (s, ⟨[], [], []⟩)
      | .kicked => some (s.quit .kicked)

def handleUdpAssociate (w : World H) (initialPayload : List UInt8) (events : List Event) :
    Option (Session H × Trace H) :=
  StepMachine.run (Session.step w) (Session.start H initialPayload) events

end TrojanServer.UdpSession
