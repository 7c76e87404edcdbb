import TrojanServer.AsyncIo
import TrojanServer.IpFilter
import TrojanServer.Protocol

/-!
`core/dns.rs`: from an `Address` to the socket addresses to connect to, and the
screening of direct targets.  The DNS cache is the sequence of its answers, and
every function that looks something up returns the number of lookups made.
-/

namespace TrojanServer.Dns

open TrojanServer.AsyncIo
open TrojanServer.FrameDecoding
open TrojanServer.IpFilter
open TrojanServer.IpText
open TrojanServer.Protocol

structure SocketAddr where
  ip : IpAddr
  port : UInt16
  deriving DecidableEq

inductive DnsError where
  | notFound (host : String)
  /-- The duration is given as it is printed. -/
  | timeout (duration : String)
  | invalidHost (host : String)
  | other (message : String)
  deriving DecidableEq

def dnsErrorToIo : DnsError → IoError
  | .notFound host => ⟨.notFound, "no addresses found for " ++ host⟩
  | .timeout duration => ⟨.timedOut, "DNS query timeout after " ++ duration⟩
  | .invalidHost host => ⟨.invalidInput, "invalid host: " ++ host⟩
  | .other message => ⟨.other, message⟩

/-- The resolver: `cache n host port` is the answer to the `n`-th lookup if it asks for `host`
and `port`. -/
abbrev DnsCache := Nat → String → UInt16 → Except DnsError (List SocketAddr)

structure ResolvedAddrs where
  v4 : Option (Octets 4)
  v6 : Option (Octets 16)
  port : UInt16
  v6First : Bool
  deriving DecidableEq

namespace ResolvedAddrs

def candidates (r : ResolvedAddrs) : List SocketAddr :=
  let v4 := r.v4.map fun ip => SocketAddr.mk (.v4 ip) r.port
  let v6 := r.v6.map fun ip => SocketAddr.mk (.v6 ip) r.port
  if r.v6First then v6.toList ++ v4.toList else v4.toList ++ v6.toList

/-- The first candidate; an error is the panic of the `expect`. -/
def socketAddr (r : ResolvedAddrs) : Except String SocketAddr :=
  match r.candidates.head? with
  | some addr => .ok addr
  | none => .error "ResolvedAddrs always holds at least one address"

/-- Take in the next address of the resolver: the first of each family stays. -/
def insert (out : ResolvedAddrs) : IpAddr → ResolvedAddrs
  | .v4 ip => { out with v4 := some (out.v4.getD ip) }
  | .v6 ip =>
      { out with v6First := out.v6First || (out.v4.isNone && out.v6.isNone)
                 v6 := some (out.v6.getD ip) }

def collect (port : UInt16) (ips : List IpAddr) : Option ResolvedAddrs :=
  let out := ips.foldl insert ⟨none, none, port, false⟩
  if out.v4.isSome || out.v6.isSome then some out else none

def firstOfEachFamily (ips : List IpAddr) : List IpAddr :=
  ((ips.findSome? IpAddr.asV4).map IpAddr.v4).toList ++
    ((ips.findSome? IpAddr.asV6).map IpAddr.v6).toList

theorem mem_firstOfEachFamily {ips : List IpAddr} {ip : IpAddr} :
    ip ∈ firstOfEachFamily ips ↔
      (∃ octets, ips.findSome? IpAddr.asV4 = some octets ∧ ip = .v4 octets) ∨
        (∃ octets, ips.findSome? IpAddr.asV6 = some octets ∧ ip = .v6 octets) := by
  simp only [firstOfEachFamily, List.mem_append, Option.mem_toList, Option.map_eq_some_iff,
    eq_comm]

theorem mem_of_mem_firstOfEachFamily {ips : List IpAddr} {ip : IpAddr}
    (h : ip ∈ firstOfEachFamily ips) : ip ∈ ips := by
  rcases mem_firstOfEachFamily.mp h with ⟨octets, hfirst, rfl⟩ | ⟨octets, hfirst, rfl⟩
  · obtain ⟨found, hmem, heq⟩ := List.exists_of_findSome?_eq_some hfirst
    cases found with
    | v4 ip =>
        cases heq
        exact hmem
    | v6 ip => cases heq
  · obtain ⟨found, hmem, heq⟩ := List.exists_of_findSome?_eq_some hfirst
    cases found with
    | v4 ip => cases heq
    | v6 ip =>
        cases heq
        exact hmem

theorem foldl_insert (ips : List IpAddr) (out : ResolvedAddrs) :
    (ips.foldl insert out).v4 = out.v4.or (ips.findSome? IpAddr.asV4) ∧
      (ips.foldl insert out).v6 = out.v6.or (ips.findSome? IpAddr.asV6) ∧
      (ips.foldl insert out).port = out.port := by
  induction ips generalizing out with
  | nil => simp
  | cons ip ips ih =>
      obtain ⟨hv4, hv6, hport⟩ := ih (out.insert ip)
      rw [List.foldl_cons, hv4, hv6, hport]
      cases ip with
      | v4 octets =>
          cases hout : out.v4 <;>
            simp [insert, hout, List.findSome?, IpAddr.asV4, IpAddr.asV6]
      | v6 octets =>
          cases hout : out.v6 <;>
            simp [insert, hout, List.findSome?, IpAddr.asV4, IpAddr.asV6]

theorem mem_candidates {r : ResolvedAddrs} {addr : SocketAddr} :
    addr ∈ r.candidates ↔
      (∃ ip, r.v4 = some ip ∧ addr = ⟨.v4 ip, r.port⟩) ∨
        (∃ ip, r.v6 = some ip ∧ addr = ⟨.v6 ip, r.port⟩) := by
  unfold candidates
  cases r.v6First <;> cases r.v4 <;> cases r.v6 <;> simp [or_comm]

theorem mem_candidates_collect {port : UInt16} {ips : List IpAddr} {r : ResolvedAddrs}
    (h : collect port ips = some r) (addr : SocketAddr) :
    addr ∈ r.candidates ↔ addr.ip ∈ firstOfEachFamily ips ∧ addr.port = port := by
  obtain ⟨hv4, hv6, hport⟩ := foldl_insert ips ⟨none, none, port, false⟩
  simp only [collect] at h
  split at h
  · cases h
    rw [mem_candidates, mem_firstOfEachFamily, hv4, hv6, hport]
    obtain ⟨ip, addrPort⟩ := addr
    simp only [Option.none_or, SocketAddr.mk.injEq]
    constructor
    · rintro (⟨octets, hfirst, rfl, rfl⟩ | ⟨octets, hfirst, rfl, rfl⟩)
      · exact ⟨.inl ⟨octets, hfirst, rfl⟩, rfl⟩
      · exact ⟨.inr ⟨octets, hfirst, rfl⟩, rfl⟩
    · rintro ⟨⟨octets, hfirst, rfl⟩ | ⟨octets, hfirst, rfl⟩, rfl⟩
      · exact .inl ⟨octets, hfirst, rfl, rfl⟩
      · exact .inr ⟨octets, hfirst, rfl, rfl⟩
  · cases h

theorem collect_eq_none_iff {port : UInt16} {ips : List IpAddr} :
    collect port ips = none ↔ ips = [] := by
  obtain ⟨hv4, hv6, -⟩ := foldl_insert ips ⟨none, none, port, false⟩
  simp only [collect, hv4, hv6]
  cases ips with
  | nil => simp
  | cons ip ips => cases ip <;> simp [List.findSome?, IpAddr.asV4, IpAddr.asV6]

end ResolvedAddrs

def resolveAddrs (cache : DnsCache) (addr : Address) (n : Nat) :
    Except IoError ResolvedAddrs × Nat :=
  match addr with
  | .ipv4 ip port => (.ok ⟨some ip, none, port, false⟩, n)
  | .ipv6 ip port => (.ok ⟨none, some ip, port, true⟩, n)
  | .domain host port =>
      match cache n host port with
      | .error e => (.error (dnsErrorToIo e), n + 1)
      | .ok addrs =>
          match ResolvedAddrs.collect port (addrs.map SocketAddr.ip) with
          | some r => (.ok r, n + 1)
          | none => (.error ⟨.notFound, "no addresses found for " ++ host⟩, n + 1)

/-- Whether the address is private, and for a domain the addresses to reuse. -/
def checkPrivateAndResolve (cache : DnsCache) (addr : Address) (n : Nat) :
    (Bool × Option ResolvedAddrs) × Nat :=
  match addr with
  | .ipv4 ip _ => ((isPrivateIp (.v4 ip), none), n)
  | .ipv6 ip _ => ((isPrivateIp (.v6 ip), none), n)
  | .domain host port =>
      match parseIpAddr host with
      | some ip => ((isPrivateIp ip, none), n)
      | none =>
          match cache n host port with
          | .error _ => ((true, none), n + 1)
          | .ok addrs =>
              let ips := addrs.map SocketAddr.ip
              if ips.any isPrivateIp then ((true, none), n + 1)
              else ((false, ResolvedAddrs.collect port ips), n + 1)

inductive DirectTarget where
  | blocked
  | allow (resolved : Option ResolvedAddrs)
  deriving DecidableEq

def screenDirectTarget (cache : DnsCache) (addr : Address) (blockPrivateIp : Bool) (n : Nat) :
    DirectTarget × Nat :=
  if blockPrivateIp then
    let checked := checkPrivateAndResolve cache addr n
    if checked.1.1 then (.blocked, checked.2)
    else (.allow checked.1.2, checked.2)
  else
    match addr with
    | .domain _ _ =>
        let resolved := resolveAddrs cache addr n
        (.allow resolved.1.toOption, resolved.2)
    | _ => (.allow none, n)

end TrojanServer.Dns
