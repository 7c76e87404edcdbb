import TrojanServer.IpText

namespace TrojanServer.IpFilter

open TrojanServer.FrameDecoding
open TrojanServer.IpText

section Std

variable (ip : Octets 4)

def isLoopback : Bool := octet ip 0 == 127

/-- Private use: 10.0.0.0/8, 172.16.0.0/12 and 192.168.0.0/16. -/
def isPrivate : Bool :=
  octet ip 0 == 10 || (octet ip 0 == 172 && decide (16 ≤ octet ip 1 ∧ octet ip 1 ≤ 31)) ||
    (octet ip 0 == 192 && octet ip 1 == 168)

def isLinkLocal : Bool := octet ip 0 == 169 && octet ip 1 == 254

def isBroadcast : Bool := ip.toList == [255, 255, 255, 255]

def isMulticast : Bool := decide (224 ≤ octet ip 0 ∧ octet ip 0 ≤ 239)

end Std

def isPrivateIpv4 (ip : Octets 4) : Bool :=
  isLoopback ip || isPrivate ip || isLinkLocal ip || octet ip 0 == 0 ||
    (octet ip 0 == 100 && (octet ip 1 &&& 0xC0) == 64) ||
    (octet ip 0 == 192 && octet ip 1 == 0 && octet ip 2 == 0) ||
    isBroadcast ip || isMulticast ip

def ipv4FromHalves (high low : UInt16) : Octets 4 := ⟨toBeBytes high ++ toBeBytes low, rfl⟩

/-- IPv4 address carried inside an IPv6 one: NAT64, mapped, or the deprecated
compatible form without `::` and `::1`. -/
def embeddedIpv4 (ip : Octets 16) : Option (Octets 4) :=
  let s := segment ip
  if (segments ip).take 6 = [0x64, 0xff9b, 0, 0, 0, 0] then some (ipv4FromHalves (s 6) (s 7))
  else
    match toIpv4Mapped ip with
    | some v4 => some v4
    | none =>
        if (segments ip).take 6 = [0, 0, 0, 0, 0, 0] ∧ (s 6 ≠ 0 ∨ 1 < s 7) then
          some (ipv4FromHalves (s 6) (s 7))
        else none

def isIpv6Ula (ip : Octets 16) : Bool := (segment ip 0 &&& 0xfe00) == 0xfc00

def isIpv6LinkLocal (ip : Octets 16) : Bool := (segment ip 0 &&& 0xffc0) == 0xfe80

def isPrivateIpv6 (ip : Octets 16) : Bool :=
  match embeddedIpv4 ip with
  | some v4 => isPrivateIpv4 v4
  | none =>
      segments ip == [0, 0, 0, 0, 0, 0, 0, 0] || segments ip == [0, 0, 0, 0, 0, 0, 0, 1] ||
        (segment ip 0 &&& 0xff00) == 0xff00 || isIpv6Ula ip || isIpv6LinkLocal ip

def isPrivateIp : IpAddr → Bool
  | .v4 ip => isPrivateIpv4 ip
  | .v6 ip => isPrivateIpv6 ip

end TrojanServer.IpFilter
