import TrojanServer.IpText

/-!
The wire format of `core/protocol.rs`: addresses, the header of a request, and
the packets of a UDP association.  Buffers are lists of bytes; a decoder that
consumes its buffer returns what is left of it.
-/

namespace TrojanServer.Protocol

open TrojanServer.FrameDecoding
open TrojanServer.IpText

def atypIpv4 : UInt8 := 1

def atypDomain : UInt8 := 3

def atypIpv6 : UInt8 := 4

def crlf : List UInt8 := [13, 10]

theorem crlf_at_iff {buf : List UInt8} {i : Nat} (h : i < buf.length)
    (h' : i + 1 < buf.length) :
    (buf.drop i).take 2 = crlf ↔ ¬ (buf[i] ≠ 13 ∨ buf[i + 1] ≠ 10) := by
  rw [take_two_drop h']
  simp [crlf]

inductive TrojanCmd where
  | connect
  | udpAssociate
  deriving Repr, DecidableEq

def TrojanCmd.tryFrom (value : UInt8) : Except String TrojanCmd :=
  if value = 1 then .ok .connect
  else if value = 3 then .ok .udpAssociate
  else .error "invalid trojan command"

inductive Address where
  | ipv4 (ip : Octets 4) (port : UInt16)
  | ipv6 (ip : Octets 16) (port : UInt16)
  | domain (host : String) (port : UInt16)
  deriving DecidableEq

namespace Address

def fromIp (ip : IpAddr) (port : UInt16) : Address :=
  match ip with
  | .v4 ip => .ipv4 ip port
  | .v6 ip => .ipv6 ip port

def port : Address → UInt16
  | .ipv4 _ port => port
  | .ipv6 _ port => port
  | .domain _ port => port

def host : Address → String
  | .ipv4 ip _ => ipv4ToString ip
  | .ipv6 ip _ => ipv6ToString ip
  | .domain host _ => host

/-- The IP this address names without a lookup. -/
def literalIp : Address → Option IpAddr
  | .ipv4 ip _ => some (.v4 ip)
  | .ipv6 ip _ => some (.v6 ip)
  | .domain host _ => parseIpAddr host

def decode (buf : List UInt8) : DecodeResult Address :=
  if hempty : buf.length = 0 then .needMoreData
  else
    let atyp := buf[0]
    if atyp = atypIpv4 then
      if h : buf.length < 7 then .needMoreData
      else .ok (.ipv4 (slice buf 1 4 (by omega)) (readU16 buf 5 (by omega))) 7
    else if atyp = atypIpv6 then
      if h : buf.length < 19 then .needMoreData
      else .ok (.ipv6 (slice buf 1 16 (by omega)) (readU16 buf 17 (by omega))) 19
    else if atyp = atypDomain then
      if hlen : buf.length < 2 then .needMoreData
      else
        let domainLen := buf[1].toNat
        let totalLen := 1 + 1 + domainLen + 2
        if h : buf.length < totalLen then .needMoreData
        else
          match fromUtf8 ((buf.drop 2).take domainLen) with
          | none => .invalid "invalid domain encoding"
          | some host => .ok (.domain host (readU16 buf (2 + domainLen) (by omega))) totalLen
    else .invalid "invalid address type"

/-- The bytes that `encode` appends to its buffer. -/
def encode : Address → List UInt8
  | .ipv4 ip port => atypIpv4 :: (ip.toList ++ toBeBytes port)
  | .ipv6 ip port => atypIpv6 :: (ip.toList ++ toBeBytes port)
  | .domain host port =>
      atypDomain :: UInt8.ofNat (min host.utf8ByteSize 255) ::
        ((asBytes host).take (min host.utf8ByteSize 255) ++ toBeBytes port)

end Address

structure TrojanRequest where
  password : Octets 56
  cmd : TrojanCmd
  addr : Address
  payload : List UInt8
  deriving DecidableEq

namespace TrojanRequest

/-- The sum 56 (password) + 2 (CRLF) + 1 (cmd) + 7 (min addr) + 2 (CRLF). -/
def minSize : Nat := 68

/-- Length of the header if the buffer holds a complete one; an error without a
message asks for more data. -/
def checkComplete (buf : List UInt8) : Except (Option String) Nat :=
  if h : buf.length < minSize then .error none
  else
    have hsize : 68 ≤ buf.length := Nat.le_of_not_lt h
    if buf[56] ≠ 13 ∨ buf[57] ≠ 10 then .error (some "missing CRLF after password")
    else
      match TrojanCmd.tryFrom buf[58] with
      | .error _ => .error (some "invalid trojan command")
      | .ok _ =>
          match Address.decode (buf.drop 59) with
          | .needMoreData => .error none
          | .invalid message => .error (some message)
          | .ok _ addrConsumed =>
              let crlfPos := 59 + addrConsumed
              if hcrlf : buf.length < crlfPos + 2 then .error none
              else if buf[crlfPos] ≠ 13 ∨ buf[crlfPos + 1] ≠ 10 then
                .error (some "missing CRLF after address")
              else .ok (crlfPos + 2)

def decodeZerocopy (buf : List UInt8) : DecodeResult TrojanRequest × List UInt8 :=
  if h : buf.length < minSize then (.needMoreData, buf)
  else
    have hsize : 68 ≤ buf.length := Nat.le_of_not_lt h
    let password : Octets 56 := slice buf 0 56 (by omega)
    if buf[56] ≠ 13 ∨ buf[57] ≠ 10 then (.invalid "missing CRLF after password", buf)
    else
      match TrojanCmd.tryFrom buf[58] with
      | .error message => (.invalid message, buf)
      | .ok cmd =>
          match Address.decode (buf.drop 59) with
          | .needMoreData => (.needMoreData, buf)
          | .invalid message => (.invalid message, buf)
          | .ok addr addrConsumed =>
              let crlfPos := 59 + addrConsumed
              if hcrlf : buf.length < crlfPos + 2 then (.needMoreData, buf)
              else if buf[crlfPos] ≠ 13 ∨ buf[crlfPos + 1] ≠ 10 then
                (.invalid "missing CRLF after address", buf)
              else
                let headerLen := crlfPos + 2
                -- split off the header, then take all that remains as the payload
                (.ok ⟨password, cmd, addr, buf.drop headerLen⟩ headerLen, [])

end TrojanRequest

structure TrojanUdpPacket where
  addr : Address
  payload : List UInt8
  deriving DecidableEq

namespace TrojanUdpPacket

/-- The sum 1 (atyp) + 4 (min addr IPv4) + 2 (port) + 2 (length) + 2 (CRLF). -/
def minSize : Nat := 11

def decode (buf : List UInt8) : DecodeResult TrojanUdpPacket :=
  if buf.length < minSize then .needMoreData
  else
    match Address.decode buf with
    | .needMoreData => .needMoreData
    | .invalid message => .invalid message
    | .ok addr addrLen =>
        if h : buf.length < addrLen + 4 then .needMoreData
        else
          let payloadLen := (readU16 buf addrLen (by omega)).toNat
          if buf[addrLen + 2] ≠ 13 ∨ buf[addrLen + 3] ≠ 10 then
            .invalid "missing CRLF in UDP packet"
          else
            let totalLen := addrLen + 4 + payloadLen
            if buf.length < totalLen then .needMoreData
            else .ok ⟨addr, (buf.take totalLen).drop (addrLen + 4)⟩ totalLen

def decodeZerocopy (buf : List UInt8) : DecodeResult TrojanUdpPacket × List UInt8 :=
  if buf.length < minSize then (.needMoreData, buf)
  else
    match Address.decode buf with
    | .needMoreData => (.needMoreData, buf)
    | .invalid message => (.invalid message, buf)
    | .ok addr addrLen =>
        if h : buf.length < addrLen + 4 then (.needMoreData, buf)
        else
          let payloadLen := (readU16 buf addrLen (by omega)).toNat
          if buf[addrLen + 2] ≠ 13 ∨ buf[addrLen + 3] ≠ 10 then
            (.invalid "missing CRLF in UDP packet", buf)
          else
            let totalLen := addrLen + 4 + payloadLen
            if buf.length < totalLen then (.needMoreData, buf)
            else
              let body := buf.drop (addrLen + 4)
              (.ok ⟨addr, body.take payloadLen⟩ totalLen, body.drop payloadLen)

def encode (addr : Address) (payload : List UInt8) : List UInt8 :=
  addr.encode ++ toBeBytes (UInt16.ofNat payload.length) ++ crlf ++ payload

end TrojanUdpPacket

end TrojanServer.Protocol
