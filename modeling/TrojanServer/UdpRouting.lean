import TrojanServer.ProxyScreen
import TrojanServer.ResolverOrder
import TrojanServer.UdpDatagrams
import TrojanServer.UdpOutbound

namespace TrojanServer.Acl

open TrojanServer.Dns
open TrojanServer.Hooks
open TrojanServer.IpFilter
open TrojanServer.IpText
open TrojanServer.Protocol

section Screening

variable {cache : DnsCache} {addr : Address} {resolved : Option ResolvedAddrs} {n n' : Nat}

/-- What the screening of a direct target vouches for: a literal address is public, or the
resolver answered for the target's own name and every address kept of that answer is public.
An empty answer is not screened: the outbound is then left to resolve the name itself. -/
inductive Screened (cache : DnsCache) (addr : Address) : Option ResolvedAddrs → Prop
  | literal {ip : IpAddr} (hliteral : addr.literalIp = some ip) (hpublic : isPrivateIp ip = false) :
      Screened cache addr none
  | resolved {host : String} {port : UInt16} {n : Nat} {addrs : List SocketAddr}
      {r : ResolvedAddrs} (hname : addr = .domain host port)
      (hanswer : cache n host port = .ok addrs)
      (hcollected : ResolvedAddrs.collect port (addrs.map SocketAddr.ip) = some r)
      (hpublic : ∀ candidate ∈ r.candidates, isPrivateIp candidate.ip = false) :
      Screened cache addr (some r)
  | unresolved {host : String} {port : UInt16} {n : Nat} (hname : addr = .domain host port)
      (hempty : cache n host port = .ok []) : Screened cache addr none

theorem screened_of_check
    (h : checkPrivateAndResolve cache addr n = ((false, resolved), n')) :
    Screened cache addr resolved := by
  have hchecked := h
  cases addr with
  | ipv4 ip port =>
      simp only [checkPrivateAndResolve, Prod.mk.injEq] at h
      obtain ⟨⟨hpublic, rfl⟩, -⟩ := h
      exact .literal rfl hpublic
  | ipv6 ip port =>
      simp only [checkPrivateAndResolve, Prod.mk.injEq] at h
      obtain ⟨⟨hpublic, rfl⟩, -⟩ := h
      exact .literal rfl hpublic
  | domain host port =>
      simp only [checkPrivateAndResolve] at h
      split at h
      · rename_i ip hip
        simp only [Prod.mk.injEq] at h
        obtain ⟨⟨hpublic, rfl⟩, -⟩ := h
        exact .literal hip hpublic
      split at h
      · cases h
      · rename_i addrs hanswer
        split at h
        · cases h
        · simp only [Prod.mk.injEq, true_and] at h
          cases resolved with
          | some r =>
              exact .resolved rfl hanswer h.1 (ResolvedAddrs.not_private_of_resolved hchecked)
          | none =>
              have hnone : addrs.map SocketAddr.ip = [] :=
                ResolvedAddrs.collect_eq_none_iff.mp h.1
              rw [List.map_eq_nil_iff.mp hnone] at hanswer
              exact .unresolved rfl hanswer

theorem screened_of_screenDirectTarget
    (h : screenDirectTarget cache addr true n = (.allow resolved, n')) :
    Screened cache addr resolved := by
  simp only [screenDirectTarget, if_true] at h
  split at h
  · cases h
  · rename_i hpublic
    cases h
    have hcheck : checkPrivateAndResolve cache addr n =
        ((false, (checkPrivateAndResolve cache addr n).1.2),
          (checkPrivateAndResolve cache addr n).2) := by
      rw [← Bool.eq_false_iff.mpr hpublic]
    exact screened_of_check hcheck

end Screening

variable {H : Type} {router : AclRouter H} {protocol : Protocol} {addr : Address}
  {outbound : OutboundType H} {n n' : Nat}

/-- The router, asked about the target at some time, decides for the outbound. -/
def RoutedUdp (router : AclRouter H) (addr : Address) (outbound : OutboundType H) : Prop :=
  ∃ n n', router.routeUdp addr n = (outbound, n')

/-- The decisions a router with screening on may make about a target.  A hijack address is the
operator's, and is not screened. -/
inductive Admitted (router : AclRouter H) (protocol : Protocol) (addr : Address) :
    OutboundType H → Prop
  | reject : Admitted router protocol addr .reject
  | proxy {handler : H} {hijack : Option IpAddr}
      (hmatched : router.engine.matchHostHijack addr.host addr.port protocol =
        some (handler, hijack))
      (hallowed : blockedOnProxy addr = false) :
      Admitted router protocol addr (.proxy handler hijack)
  | hijacked {handler : H} {ip : IpAddr}
      (hmatched : router.engine.matchHostHijack addr.host addr.port protocol =
        some (handler, some ip)) :
      Admitted router protocol addr (.direct (ResolvedAddrs.collect addr.port [ip]) (some handler))
  | direct {resolved : Option ResolvedAddrs} {handler : Option H}
      (hscreened : Screened router.dnsCache addr resolved) :
      Admitted router protocol addr (.direct resolved handler)

theorem admitted_of_routeDirect {handler : Option H} (hblock : router.blockPrivateIp = true)
    (h : router.routeDirect addr handler none n = (outbound, n')) :
    Admitted router protocol addr outbound := by
  simp only [AclRouter.routeDirect, hblock] at h
  split at h
  · cases h
    exact .reject
  · rename_i hallow
    cases h
    exact .direct (screened_of_screenDirectTarget hallow)

theorem admitted_of_route (hblock : router.blockPrivateIp = true)
    (h : router.routeWithProtocol addr protocol n = (outbound, n')) :
    Admitted router protocol addr outbound := by
  cases outbound with
  | reject => exact .reject
  | proxy handler hijack =>
      obtain ⟨hmatched, -, hallowed, -⟩ := proxy_cases h
      exact .proxy hmatched (by simpa [hblock] using hallowed)
  | direct resolved handler =>
      simp only [AclRouter.routeWithProtocol] at h
      split at h
      · rename_i matched hijack hmatched
        have hproxy : ∀ handler' hijack', router.routeProxy addr handler' hijack' ≠
            .direct resolved handler := by
          intro handler' hijack'
          unfold AclRouter.routeProxy
          split <;> simp
        split at h
        · cases h
        · exact absurd (Prod.mk.inj h).1 (hproxy _ _)
        · exact absurd (Prod.mk.inj h).1 (hproxy _ _)
        · cases hijack with
          | some ip =>
              cases h
              exact .hijacked hmatched
          | none => exact admitted_of_routeDirect hblock h
      · exact admitted_of_routeDirect hblock h

end TrojanServer.Acl

namespace TrojanServer.UdpAssociate

open TrojanServer.Hooks
open TrojanServer.Protocol
open TrojanServer.StepMachine

variable {H : Type} {Routed : Address → OutboundType H → Prop} {s s' : Association H}
  {i : PacketIn H} {log : PacketLog H}

/-- Every remembered route is one the router gave for its target, there is one for a target,
and not too many of them. -/
structure RoutesInv (Routed : Address → OutboundType H → Prop) (s : Association H) : Prop where
  routed : ∀ entry ∈ s.routeCache, ∃ outbound, Routed entry.1 outbound ∧
    entry.2 = routeUdpTarget outbound entry.1
  distinct : (s.routeCache.map Prod.fst).Nodup
  bounded : s.routeCache.length ≤ udpMaxRouteCacheEntries

theorem RoutesInv.routeFor (h : RoutesInv Routed s) (hrouted : Routed i.packet.addr i.routed) :
    ∃ outbound, Routed i.packet.addr outbound ∧
      s.routeFor i = routeUdpTarget outbound i.packet.addr := by
  unfold Association.routeFor
  split
  · rename_i entry hfound
    have hkey : entry.1 = i.packet.addr := by simpa using List.find?_some hfound
    obtain ⟨outbound, houtbound, hroute⟩ := h.routed entry (List.mem_of_find?_eq_some hfound)
    rw [hkey] at houtbound hroute
    exact ⟨outbound, houtbound, hroute⟩
  · exact ⟨i.routed, hrouted, rfl⟩

theorem RoutesInv.cacheRoute (h : RoutesInv Routed s) (hrouted : Routed i.packet.addr i.routed) :
    RoutesInv Routed (s.cacheRoute i) := by
  unfold Association.cacheRoute
  split
  · exact h
  · rename_i hmissing
    obtain ⟨kept, hkept, hsub, hfew⟩ : ∃ kept, (if udpMaxRouteCacheEntries ≤ s.routeCache.length
        then [] else s.routeCache) = kept ∧ kept.Sublist s.routeCache ∧
          kept.length < udpMaxRouteCacheEntries := by
      split
      · exact ⟨[], rfl, List.nil_sublist _, Nat.succ_pos 255⟩
      · rename_i hroom
        exact ⟨s.routeCache, rfl, .refl _, Nat.lt_of_not_le hroom⟩
    simp only [hkept]
    refine ⟨?_, ?_, hfew⟩
    · intro entry hentry
      rcases List.mem_cons.mp hentry with rfl | hold
      · exact ⟨i.routed, hrouted, rfl⟩
      · exact h.routed entry (hsub.subset hold)
    · rw [List.map_cons, List.nodup_cons]
      refine ⟨?_, (hsub.map Prod.fst).nodup h.distinct⟩
      intro hin
      obtain ⟨entry, hentry, hkey⟩ := List.mem_map.mp hin
      have hnone := List.find?_eq_none.mp hmissing entry (hsub.subset hentry)
      exact hnone (by simpa using hkey)

variable [DecidableEq H] {o : Outbounds H}

theorem selectConn_routeCache (o : Outbounds H) (s : Association H) (outbound : OutboundType H)
    (dial : Except String Unit) :
    (selectConn o s outbound dial).assoc.routeCache = s.routeCache := by
  have hcase := selectConn_cases o s outbound dial
  generalize selectConn o s outbound dial = selected at hcase ⊢
  cases hcase <;> rfl

theorem routeCache_of_step (h : s.step o i = some (s', log)) :
    s'.routeCache = (s.cacheRoute i).routeCache := by
  have hselected := selectConn_routeCache o (s.cacheRoute i) (s.routeFor i).outbound i.dial
  unfold Association.step at h
  split at h
  · cases h
  simp only at h
  split at h
  · cases h
    rw [← hselected]
    unfold sendPacket
    split
    · rfl
    · split <;> rfl
  · cases h
    exact hselected

theorem RoutesInv.step (h : RoutesInv Routed s) (hrouted : Routed i.packet.addr i.routed)
    (hstep : s.step o i = some (s', log)) :
    RoutesInv Routed s' ∧ ∃ outbound, Routed i.packet.addr outbound ∧
      log.route = routeUdpTarget outbound i.packet.addr := by
  have hcache := routeCache_of_step hstep
  obtain ⟨hroute, -⟩ := step_cases hstep
  obtain ⟨hall, hdistinct, hbounded⟩ := h.cacheRoute hrouted
  rw [← hcache] at hall hdistinct hbounded
  rw [hroute]
  exact ⟨⟨hall, hdistinct, hbounded⟩, h.routeFor hrouted⟩

theorem outbound_of_write (hstep : s.step o i = some (s', log)) (hwrite : log.write.isSome = true) :
    log.route.outbound ≠ .reject := by
  obtain ⟨-, selected, hcase, -, -, -, hlog⟩ := step_cases hstep
  intro hreject
  rw [hreject] at hcase
  cases hcase
  rw [hlog] at hwrite
  cases hwrite

/-- The router's decision for the packet's own target, and what follows from it. -/
def Decided (Routed : Address → OutboundType H → Prop) (i : PacketIn H) (log : PacketLog H) :
    Prop :=
  Routed i.packet.addr log.route.outbound ∧
    log.route = routeUdpTarget log.route.outbound i.packet.addr ∧
    (log.write.isSome = true → log.route.outbound ≠ .reject)

theorem decided_of_run {inputs : List (PacketIn H)} {session : Session H}
    (hrun : handleUdpAssociate o inputs = some (s, session))
    (hrouted : ∀ i ∈ inputs, Routed i.packet.addr i.routed) :
    RoutesInv Routed s ∧ ∀ entry ∈ session, Decided Routed entry.1 entry.2 := by
  have hstart : RoutesInv Routed (Association.start H) :=
    ⟨by simp [Association.start], .nil, Nat.zero_le _⟩
  have hdecide : ∀ (_ : Session H) s i s' log, RoutesInv Routed s → Routed i.packet.addr i.routed →
      s.step o i = some (s', log) → RoutesInv Routed s' ∧ Decided Routed i log := by
    intro _ s i s' log hinv hi hstep
    obtain ⟨hinv', outbound, houtbound, hroute⟩ := hinv.step hi hstep
    have hsame : log.route.outbound = outbound := by rw [hroute]; rfl
    refine ⟨hinv', ?_, ?_, outbound_of_write hstep⟩
    · rw [hsame]
      exact houtbound
    · rw [hsame]
      exact hroute
  obtain ⟨hinv, hevents⟩ := run_induction_events (P := fun _ => RoutesInv Routed)
    (Q := fun _ => Decided Routed) hrun
    (along_of_mem (C := fun _ i => Routed i.packet.addr i.routed)
      (fun i hi _ => hrouted i hi) _) hstart hdecide
  refine ⟨hinv, ?_⟩
  intro entry hentry
  obtain ⟨before, after, hsplit⟩ := List.append_of_mem hentry
  exact hevents before entry.1 entry.2 after hsplit

end TrojanServer.UdpAssociate

namespace TrojanServer.UdpSession

open TrojanServer.Acl
open TrojanServer.StepMachine
open TrojanServer.UdpAssociate

variable {H : Type} [DecidableEq H] {w : World H} {s : Session H} {trace : Trace H}

/-- With screening on, every datagram of a session is handled under a decision that the router
made for its own target and that the screening admits, a rejected one is never written, and at
most 256 decisions are remembered. -/
theorem datagrams_screened {router : AclRouter H} (hblock : router.blockPrivateIp = true)
    {initial : List UInt8} {events : List Event}
    (hrun : handleUdpAssociate w initial events = some (s, trace))
    (hrouter : ∀ k p, (packets trace)[k]? = some p →
      RoutedUdp router p.1.addr (w.answers k).routed) :
    s.assoc.routeCache.length ≤ udpMaxRouteCacheEntries ∧
      ∀ p ∈ packets trace,
        RoutedUdp router p.1.addr p.2.route.outbound ∧
        Admitted router .udp p.1.addr p.2.route.outbound ∧
        p.2.route = routeUdpTarget p.2.route.outbound p.1.addr ∧
        (p.2.write.isSome = true → p.2.route.outbound ≠ .reject) := by
  obtain ⟨inputs, hassociation⟩ := (associated_of_run hrun).run
  have hinputs : ∀ i ∈ inputs, RoutedUdp router i.packet.addr i.routed := by
    intro i hi
    rw [← map_fst_of_run hassociation] at hi
    obtain ⟨entry, hentry, rfl⟩ := List.mem_map.mp hi
    obtain ⟨⟨p, k⟩, hp, rfl⟩ := List.mem_map.mp hentry
    exact hrouter k p (List.mem_zipIdx_iff_getElem?.mp hp)
  obtain ⟨hinv, hdecided⟩ := decided_of_run hassociation hinputs
  refine ⟨hinv.bounded, ?_⟩
  intro p hp
  obtain ⟨k, hk⟩ := List.mem_iff_getElem?.mp hp
  obtain ⟨⟨n, n', hroute⟩, hrest⟩ := hdecided (packetIn w k p.1, p.2)
    (List.mem_map.mpr ⟨(p, k), List.mem_zipIdx_iff_getElem?.mpr hk, rfl⟩)
  exact ⟨⟨n, n', hroute⟩, admitted_of_route hblock hroute, hrest⟩

/-- No rule matches and there is no resolver. -/
def screeningRouter : AclRouter Unit where
  engine := ⟨fun _ _ _ => none, fun _ => none, fun _ => .reject⟩
  blockPrivateIp := true
  dnsCache := fun _ host _ => .error (.notFound host)

theorem datagrams_screened_direct :
    ∃ s trace, handleUdpAssociate directWorld twoPackets [.buffered] = some (s, trace) ∧
      (packets trace).length = 2 ∧
      ∀ p ∈ packets trace, Admitted screeningRouter .udp p.1.addr p.2.route.outbound := by
  obtain ⟨s, trace, hrun, hlength, hrouter⟩ : ∃ s trace,
      handleUdpAssociate directWorld twoPackets [.buffered] = some (s, trace) ∧
      (packets trace).length = 2 ∧
      ∀ p ∈ packets trace, screeningRouter.routeUdp p.1.addr 0 = (.direct none none, 0) :=
    ⟨_, _, rfl, rfl, by decide⟩
  refine ⟨s, trace, hrun, hlength, fun p hp => ?_⟩
  exact ((datagrams_screened rfl hrun fun k p hk =>
    ⟨0, 0, hrouter p (List.mem_of_getElem? hk)⟩).2 p hp).2.1

end TrojanServer.UdpSession
