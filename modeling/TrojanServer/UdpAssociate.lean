import TrojanServer.Hooks
import TrojanServer.StepMachine

/-!
The packet loop of `handle_udp_associate`: every decoded packet is routed, the
one connection of the association is switched if need be, and the packet is
written.  A connection remembers the handler it was dialed through and the
number of the dial, which the code does not look at.
-/

namespace TrojanServer.UdpAssociate

open TrojanServer.Hooks
open TrojanServer.Protocol

structure UdpRoute (H : Type) where
  outbound : OutboundType H
  sendAddr : AclAddr
  deriving DecidableEq

structure UdpConn (H : Type) where
  serial : Nat
  via : H
  deriving Repr, DecidableEq

/-- The handlers of the server: what each pointer leads to, and the shared
default for direct packets without an ACL handler. -/
structure Outbounds (H : Type) where
  deref : H → OutboundHandler
  defaultDirectHandler : H

structure Association (H : Type) where
  routeCache : List (Address × UdpRoute H)
  udpConn : Option (UdpConn H)
  currentHandler : Option H
  sendErrors : Nat
  dials : Nat
  giveUp : Bool
  deriving DecidableEq

/-- A packet, and what the world answers while it is handled: the router if it
is asked, the dial if one is made, and the write if there is one. -/
structure PacketIn (H : Type) where
  packet : TrojanUdpPacket
  routed : OutboundType H
  dial : Except String Unit
  write : Except String Nat

/-- What was done for a packet: the handler dialed and the connection this gave,
the connection written to, and the bytes recorded as uploaded. -/
structure PacketLog (H : Type) where
  route : UdpRoute H
  dial : Option (H × Option (UdpConn H))
  write : Option (UdpConn H)
  upload : Option Nat
  deriving DecidableEq

def udpMaxRouteCacheEntries : Nat := 256

def udpMaxConsecutiveErrors : Nat := 8

def Association.start (H : Type) : Association H where
  routeCache := []
  udpConn := none
  currentHandler := none
  sendErrors := 0
  dials := 0
  giveUp := false

variable {H : Type}

def routeUdpTarget (outbound : OutboundType H) (target : Address) : UdpRoute H where
  outbound := outbound
  sendAddr :=
    match outbound with
    | .direct resolved _ => aclAddrFor target resolved
    | .proxy _ (some ip) => aclAddrFor (.fromIp ip target.port) none
    | _ => aclAddrFor target none

def Association.routeFor (s : Association H) (i : PacketIn H) : UdpRoute H :=
  match s.routeCache.find? fun entry => entry.1 = i.packet.addr with
  | some entry => entry.2
  | none => routeUdpTarget i.routed i.packet.addr

/-- Remember a route that was not cached, evicting all entries of a full
cache. -/
def Association.cacheRoute (s : Association H) (i : PacketIn H) : Association H :=
  match s.routeCache.find? fun entry => entry.1 = i.packet.addr with
  | some _ => s
  | none =>
      let kept := if udpMaxRouteCacheEntries ≤ s.routeCache.length then [] else s.routeCache
      { s with routeCache := (i.packet.addr, routeUdpTarget i.routed i.packet.addr) :: kept }

structure Selected (H : Type) where
  assoc : Association H
  dial : Option (H × Option (UdpConn H))
  goOn : Bool
  deriving DecidableEq

variable [DecidableEq H]

def Association.needNewConn (s : Association H) (handler : H) : Bool :=
  match s.currentHandler with
  | none => true
  | some h => !decide (h = handler)

def selectConn (o : Outbounds H) (s : Association H) (outbound : OutboundType H)
    (dial : Except String Unit) : Selected H :=
  match outbound with
  | .reject => ⟨s, none, false⟩
  | .direct _ handler =>
      -- one direct socket serves every direct target
      if s.udpConn.isNone || s.currentHandler.isSome then
        let dialHandler := handler.getD o.defaultDirectHandler
        let conn := UdpConn.mk s.dials dialHandler
        let dropped := { s with udpConn := none, currentHandler := none, dials := s.dials + 1 }
        match dial with
        | .ok _ => ⟨{ dropped with udpConn := some conn }, some (dialHandler, some conn), true⟩
        | .error _ => ⟨dropped, some (dialHandler, none), false⟩
      else ⟨s, none, true⟩
  | .proxy handler _ =>
      if !(o.deref handler).allowsUdp then ⟨s, none, false⟩
      else if s.needNewConn handler then
        let conn := UdpConn.mk s.dials handler
        let dropped := { s with udpConn := none, dials := s.dials + 1 }
        match dial with
        | .ok _ =>
            ⟨{ dropped with udpConn := some conn, currentHandler := some handler },
              some (handler, some conn), true⟩
        -- the handler of the connection just dropped stays current
        | .error _ => ⟨dropped, some (handler, none), false⟩
      else ⟨s, none, true⟩

def sendPacket (s : Association H) (write : Except String Nat) :
    Association H × Option (UdpConn H) × Option Nat :=
  match s.udpConn with
  | none => (s, none, none)
  | some conn =>
      match write with
      | .ok n => ({ s with sendErrors := 0 }, some conn, some n)
      | .error _ =>
          ({ s with sendErrors := s.sendErrors + 1
                    giveUp := decide (udpMaxConsecutiveErrors ≤ s.sendErrors + 1) },
            some conn, none)

/-- Handle one packet.  A session that has given up handles no more. -/
def Association.step (o : Outbounds H) (s : Association H) (i : PacketIn H) :
    Option (Association H × PacketLog H) :=
  if s.giveUp then none
  else
    let route := s.routeFor i
    let selected := selectConn o (s.cacheRoute i) route.outbound i.dial
    if selected.goOn then
      let sent := sendPacket selected.assoc i.write
      some (sent.1, ⟨route, selected.dial, sent.2.1, sent.2.2⟩)
    else some (selected.assoc, ⟨route, selected.dial, none, none⟩)

def handleUdpAssociate (o : Outbounds H) (packets : List (PacketIn H)) :
    Option (Association H × List (PacketIn H × PacketLog H)) :=
  StepMachine.run (Association.step o) (Association.start H) packets

abbrev Session (H : Type) := List (PacketIn H × PacketLog H)

end TrojanServer.UdpAssociate
