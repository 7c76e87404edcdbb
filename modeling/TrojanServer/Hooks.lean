import TrojanServer.Dns

/-!
Routing decisions of `core/hooks.rs` and the outbound handlers of `acl.rs` they
name.  Handlers are shared pointers: `H` is the type of these pointers, compared
by identity, and a handler's kind is what the pointer leads to.
-/

namespace TrojanServer.Hooks

open TrojanServer.Dns
open TrojanServer.FrameDecoding
open TrojanServer.IpText
open TrojanServer.Protocol

/-- What an outbound handler is, as far as UDP is concerned. -/
inductive OutboundHandler where
  | direct
  | socks5 (allowUdp : Bool)
  | http
  | reject
  deriving Repr, DecidableEq

def OutboundHandler.allowsUdp : OutboundHandler → Bool
  | .direct => true
  | .socks5 allowUdp => allowUdp
  | .http => false
  | .reject => false

inductive OutboundType (H : Type) where
  | direct (resolved : Option ResolvedAddrs) (handler : Option H)
  | reject
  | proxy (handler : H) (hijack : Option IpAddr)
  deriving DecidableEq

structure AclAddr where
  host : String
  port : UInt16
  resolveInfo : Option (Option (Octets 4) × Option (Octets 16))
  deriving DecidableEq

def aclAddrFor (target : Address) (resolved : Option ResolvedAddrs) : AclAddr where
  host := target.host
  port := target.port
  resolveInfo := resolved.map fun r => (r.v4, r.v6)

structure DirectRouter where
  blockPrivateIp : Bool
  dnsCache : DnsCache

def DirectRouter.route {H : Type} (router : DirectRouter) (addr : Address) (n : Nat) :
    OutboundType H × Nat :=
  match screenDirectTarget router.dnsCache addr router.blockPrivateIp n with
  | (.blocked, n) => (.reject, n)
  | (.allow resolved, n) => (.direct resolved none, n)

end TrojanServer.Hooks
