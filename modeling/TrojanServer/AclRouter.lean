import Mathlib.Data.List.DropRight
import TrojanServer.Hooks

/-!
The router of `acl.rs`: rules first, then the screening of whatever leaves through a
proxy, and only for direct targets the resolver.  The compiled rule set is the rule
engine's own; host names are compared as bytes, the way `str` does.
-/

namespace TrojanServer.Acl

open TrojanServer.Dns
open TrojanServer.FrameDecoding
open TrojanServer.Hooks
open TrojanServer.IpFilter
open TrojanServer.IpText
open TrojanServer.Protocol

section HostNames

def isAsciiDigit (b : UInt8) : Bool := decide (48 ≤ b ∧ b ≤ 57)

def isAsciiHexdigit (b : UInt8) : Bool :=
  isAsciiDigit b || decide (97 ≤ b ∧ b ≤ 102) || decide (65 ≤ b ∧ b ≤ 70)

def toAsciiLowercase (b : UInt8) : UInt8 := if 65 ≤ b ∧ b ≤ 90 then b + 32 else b

/-- The text without the dots at its end. -/
def trimEndDots (text : List UInt8) : List UInt8 := text.rdropWhile (· == 46)

def lastLabel (text : List UInt8) : List UInt8 := text.rtakeWhile (· != 46)

/-- What follows `0x` or `0X`. -/
def stripHexMark : List UInt8 → Option (List UInt8)
  | 48 :: 120 :: digits => some digits
  | 48 :: 88 :: digits => some digits
  | _ => none

def isNumericHost (host : String) : Bool :=
  let last := lastLabel (trimEndDots (asBytes host))
  !last.isEmpty &&
    (last.all isAsciiDigit ||
      (stripHexMark last).any fun digits => !digits.isEmpty && digits.all isAsciiHexdigit)

def loopbackAliases : List String :=
  ["localhost", "localhost4", "localhost6", "localhost.localdomain", "localhost4.localdomain4",
    "localhost6.localdomain6", "ip6-localhost", "ip6-loopback"]

def isLocalhostName (host : String) : Bool :=
  let h := (trimEndDots (asBytes host)).map toAsciiLowercase
  (loopbackAliases.map asBytes).contains h || (asBytes ".localhost").isSuffixOf h

end HostNames

inductive Protocol where
  | tcp
  | udp
  deriving Repr, DecidableEq

inductive HostInfo where
  | fromIp (ip : IpAddr)
  | fromName (host : String)
  deriving DecidableEq

/-- The rule set answers with the outbound of the rule that matches and the rule's
hijack address; `outbounds` are the handlers by name. -/
structure AclEngine (H : Type) where
  compiled : HostInfo → Protocol → UInt16 → Option (H × Option IpAddr)
  outbounds : String → Option H
  deref : H → OutboundHandler

variable {H : Type}

def AclEngine.matchHostHijack (engine : AclEngine H) (host : String) (port : UInt16)
    (protocol : Protocol) : Option (H × Option IpAddr) :=
  let hostInfo :=
    match parseIpAddr host with
    | some ip => .fromIp ip
    | none => .fromName host
  match engine.compiled hostInfo protocol port with
  | some result => some result
  | none => (engine.outbounds "direct").map fun handler => (handler, none)

structure AclRouter (H : Type) where
  engine : AclEngine H
  blockPrivateIp : Bool
  dnsCache : DnsCache

/-- The targets no proxy is handed: private literals, and hosts the proxy would read as
an address or resolve to loopback. -/
def blockedOnProxy (addr : Address) : Bool :=
  match addr.literalIp with
  | some ip => isPrivateIp ip
  | none => isNumericHost addr.host || isLocalhostName addr.host

namespace AclRouter

def routeDirect (router : AclRouter H) (addr : Address) (handler : Option H)
    (hijack : Option IpAddr) (n : Nat) : OutboundType H × Nat :=
  match hijack with
  | some ip => (.direct (ResolvedAddrs.collect addr.port [ip]) handler, n)
  | none =>
      match screenDirectTarget router.dnsCache addr router.blockPrivateIp n with
      | (.blocked, n) => (.reject, n)
      | (.allow resolved, n) => (.direct resolved handler, n)

def routeProxy (router : AclRouter H) (addr : Address) (handler : H) (hijack : Option IpAddr) :
    OutboundType H :=
  if router.blockPrivateIp && blockedOnProxy addr then .reject else .proxy handler hijack

def routeWithProtocol (router : AclRouter H) (addr : Address) (protocol : Protocol) (n : Nat) :
    OutboundType H × Nat :=
  match router.engine.matchHostHijack addr.host addr.port protocol with
  | some (handler, hijack) =>
      match router.engine.deref handler with
      | .reject => (.reject, n)
      | .socks5 _ => (router.routeProxy addr handler hijack, n)
      | .http => (router.routeProxy addr handler hijack, n)
      | .direct => router.routeDirect addr (some handler) hijack n
  -- no `direct` outbound exists
  | none => router.routeDirect addr none none n

def route (router : AclRouter H) (addr : Address) (n : Nat) : OutboundType H × Nat :=
  router.routeWithProtocol addr .tcp n

def routeUdp (router : AclRouter H) (addr : Address) (n : Nat) : OutboundType H × Nat :=
  router.routeWithProtocol addr .udp n

end AclRouter

end TrojanServer.Acl
