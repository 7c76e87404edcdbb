import TrojanServer.UdpAssociate

namespace TrojanServer.UdpAssociate

open TrojanServer.Hooks
open TrojanServer.Protocol

variable {H : Type}

@[simp] theorem cacheRoute_frame (s : Association H) (i : PacketIn H) :
    (s.cacheRoute i).udpConn = s.udpConn ∧
      (s.cacheRoute i).currentHandler = s.currentHandler := by
  unfold Association.cacheRoute
  split <;> simp

@[simp] theorem sendPacket_frame (s : Association H) (write : Except String Nat) :
    (sendPacket s write).1.udpConn = s.udpConn ∧
      (sendPacket s write).1.currentHandler = s.currentHandler ∧
      (sendPacket s write).2.1 = s.udpConn := by
  unfold sendPacket
  cases hconn : s.udpConn with
  | none => simp [hconn]
  | some conn => cases write <;> simp

variable [DecidableEq H] {o : Outbounds H}

inductive SelectCase (o : Outbounds H) (s : Association H) :
    OutboundType H → Except String Unit → Selected H → Prop
  | rejected {dial : Except String Unit} : SelectCase o s .reject dial ⟨s, none, false⟩
  | directReused {dial : Except String Unit} {resolved handler} {conn : UdpConn H}
      (hconn : s.udpConn = some conn) (hcurrent : s.currentHandler = none) :
      SelectCase o s (.direct resolved handler) dial ⟨s, none, true⟩
  | directDialed {resolved handler} (conn : UdpConn H)
      (hvia : conn.via = handler.getD o.defaultDirectHandler) :
      SelectCase o s (.direct resolved handler) (.ok ())
        ⟨{ s with udpConn := some conn, currentHandler := none, dials := s.dials + 1 },
          some (conn.via, some conn), true⟩
  | directFailed {resolved handler} {e : String} :
      SelectCase o s (.direct resolved handler) (.error e)
        ⟨{ s with udpConn := none, currentHandler := none, dials := s.dials + 1 },
          some (handler.getD o.defaultDirectHandler, none), false⟩
  | proxyForbidden {dial : Except String Unit} {handler hijack}
      (hudp : (o.deref handler).allowsUdp = false) :
      SelectCase o s (.proxy handler hijack) dial ⟨s, none, false⟩
  | proxyReused {dial : Except String Unit} {handler hijack}
      (hcurrent : s.currentHandler = some handler) :
      SelectCase o s (.proxy handler hijack) dial ⟨s, none, true⟩
  | proxyDialed {handler hijack} (conn : UdpConn H) (hvia : conn.via = handler) :
      SelectCase o s (.proxy handler hijack) (.ok ())
        ⟨{ s with udpConn := some conn, currentHandler := some handler, dials := s.dials + 1 },
          some (handler, some conn), true⟩
  | proxyFailed {handler hijack} {e : String} (hudp : (o.deref handler).allowsUdp = true)
      (hcurrent : s.currentHandler ≠ some handler) :
      SelectCase o s (.proxy handler hijack) (.error e)
        ⟨{ s with udpConn := none, dials := s.dials + 1 }, some (handler, none), false⟩

theorem needNewConn_iff (s : Association H) (handler : H) :
    s.needNewConn handler = true ↔ s.currentHandler ≠ some handler := by
  unfold Association.needNewConn
  cases s.currentHandler <;> simp

theorem selectConn_cases (o : Outbounds H) (s : Association H) (outbound : OutboundType H)
    (dial : Except String Unit) :
    SelectCase o s outbound dial (selectConn o s outbound dial) := by
  cases outbound with
  | reject => exact .rejected
  | direct resolved handler =>
      simp only [selectConn]
      split
      · rcases dial with e | ⟨⟩
        · exact .directFailed
        · exact .directDialed ⟨s.dials, _⟩ rfl
      · rename_i hkeep
        simp only [Bool.or_eq_true, Option.isNone_iff_eq_none, Option.isSome_iff_ne_none,
          not_or, not_not] at hkeep
        obtain ⟨conn, hconn⟩ := Option.ne_none_iff_exists'.mp hkeep.1
        exact .directReused hconn hkeep.2
  | proxy handler hijack =>
      simp only [selectConn]
      split
      · rename_i hudp
        exact .proxyForbidden (by simpa using hudp)
      · rename_i hudp
        have hudp : (o.deref handler).allowsUdp = true := by simpa using hudp
        split
        · rename_i hnew
          rw [needNewConn_iff] at hnew
          rcases dial with e | ⟨⟩
          · exact .proxyFailed hudp hnew
          · exact .proxyDialed ⟨s.dials, handler⟩ rfl
        · rename_i hkeep
          rw [needNewConn_iff, not_not] at hkeep
          exact .proxyReused hkeep

/-- What handling a packet does to the connection of the association: the case
it was, and the connection it was written on if it got that far. -/
theorem step_cases {s s' : Association H} {i : PacketIn H} {log : PacketLog H}
    (h : s.step o i = some (s', log)) :
    log.route = s.routeFor i ∧ ∃ selected,
      SelectCase o (s.cacheRoute i) log.route.outbound i.dial selected ∧
        s'.udpConn = selected.assoc.udpConn ∧
        s'.currentHandler = selected.assoc.currentHandler ∧ log.dial = selected.dial ∧
        log.write = if selected.goOn then selected.assoc.udpConn else none := by
  unfold Association.step at h
  split at h
  · cases h
  · simp only at h
    have hcase := selectConn_cases o (s.cacheRoute i) (s.routeFor i).outbound i.dial
    split at h
    · rename_i hgoOn
      cases h
      exact ⟨rfl, _, hcase, by simp, by simp, rfl, by simp [hgoOn]⟩
    · rename_i hgoOn
      cases h
      exact ⟨rfl, _, hcase, rfl, rfl, rfl, by simp [hgoOn]⟩

section Coherence

def Coherent (s : Association H) : Prop :=
  ∀ h, s.currentHandler = some h → ∃ conn, s.udpConn = some conn ∧ conn.via = h

/-- A packet for a proxy that can carry UDP is written on a connection dialed
through that proxy, or the dial made for it failed. -/
def Served (o : Outbounds H) (log : PacketLog H) : Prop :=
  ∀ handler hijack, log.route.outbound = .proxy handler hijack →
    (o.deref handler).allowsUdp = true →
      (∃ conn, log.write = some conn ∧ conn.via = handler) ∨ log.dial = some (handler, none)

/-- The packet does not fail to switch the association from one proxy to
another. -/
def SwitchSucceeds (o : Outbounds H) (s : Association H) (i : PacketIn H) : Prop :=
  ∀ handler hijack h, (s.routeFor i).outbound = .proxy handler hijack →
    (o.deref handler).allowsUdp = true → s.currentHandler = some h → h ≠ handler →
      i.dial = .ok ()

theorem Coherent.step {s s' : Association H} {i : PacketIn H} {log : PacketLog H}
    (hs : Coherent s) (hswitch : SwitchSucceeds o s i) (h : s.step o i = some (s', log)) :
    Coherent s' ∧ Served o log := by
  obtain ⟨hroute, selected, hcase, hconn, hcurrent, hdial, hwrite⟩ := step_cases h
  have hkeep : Coherent (s.cacheRoute i) := by simpa [Coherent] using hs
  unfold Coherent Served
  rw [hconn, hcurrent, hdial, hwrite]
  generalize hout : log.route.outbound = outbound at hcase
  generalize hresult : i.dial = dial at hcase
  rw [hroute] at hout
  cases hcase with
  | rejected => exact ⟨hkeep, by simp⟩
  | directReused => exact ⟨hkeep, by simp⟩
  | directDialed => exact ⟨by simp, by simp⟩
  | directFailed => exact ⟨by simp, by simp⟩
  | proxyForbidden hudp =>
      refine ⟨hkeep, ?_⟩
      rintro handler hijack heq hallowed
      cases heq
      simp [hudp] at hallowed
  | proxyReused hkept =>
      refine ⟨hkeep, ?_⟩
      rintro handler hijack heq -
      cases heq
      exact .inl (hkeep _ hkept)
  | @proxyDialed handler hijack conn hvia =>
      constructor
      · rintro h heq
        cases heq
        exact ⟨conn, rfl, hvia⟩
      · rintro handler hijack heq -
        cases heq
        exact .inl ⟨conn, rfl, hvia⟩
  | @proxyFailed handler hijack e hudp hnew =>
      constructor
      · intro h hh
        simp only [cacheRoute_frame] at hh hnew
        have hne : h ≠ handler := by
          rintro rfl
          exact hnew hh
        have hok := hswitch handler hijack h hout hudp hh hne
        rw [hresult] at hok
        cases hok
      · rintro handler hijack heq -
        cases heq
        exact .inr rfl

/-- In a session in which no switch from one proxy to another fails, the
association is always coherent and every packet for a proxy is served. -/
theorem association_coherent (o : Outbounds H) (packets : List (PacketIn H))
    (s : Association H) (session : Session H)
    (hrun : handleUdpAssociate o packets = some (s, session))
    (hswitch : StepMachine.Along (Association.step o) (SwitchSucceeds o)
      (Association.start H) packets) :
    Coherent s ∧ ∀ i log, (i, log) ∈ session → Served o log := by
  have hstart : Coherent (Association.start H) := by simp [Coherent, Association.start]
  obtain ⟨hs, hserved⟩ := StepMachine.run_induction_events (P := fun _ s => Coherent s)
    (Q := fun _ _ log => Served o log) hrun hswitch hstart
    fun _ _ _ _ _ hs hi hstep => hs.step hi hstep
  exact ⟨hs, StepMachine.forall_mem_of_split hserved⟩

def twoProxies : Outbounds Nat where
  deref h := if h = 0 then .direct else .socks5 true
  defaultDirectHandler := 0

def proxied (port : UInt16) (handler : Nat) (dial : Except String Unit) : PacketIn Nat where
  packet := ⟨.domain "example.com" port, [1]⟩
  routed := .proxy handler none
  dial := dial
  write := .ok 1

def switchPackets (dial : Except String Unit) : List (PacketIn Nat) :=
  [proxied 1 1 (.ok ()), proxied 2 2 dial, proxied 1 1 (.ok ())]

/-- After a failed switch to proxy 2, a packet for proxy 1 is dropped without a
dial or a write. -/
theorem failed_switch_drops_packet :
    ∃ s session,
      handleUdpAssociate twoProxies (switchPackets (.error "refused")) = some (s, session) ∧
      s.currentHandler = some 1 ∧ s.udpConn = none ∧
      (session.getLast?.map fun event => (event.2.dial, event.2.write)) = some (none, none) ∧
      ¬ Coherent s ∧ ¬ ∀ i log, (i, log) ∈ session → Served twoProxies log := by
  refine ⟨_, _, rfl, rfl, rfl, rfl, ?_, ?_⟩
  · intro h
    obtain ⟨conn, hconn, -⟩ := h 1 rfl
    cases hconn
  · intro h
    rcases h _ _ (List.mem_cons_of_mem _ (List.mem_cons_of_mem _ List.mem_cons_self)) 1 none rfl
      rfl with ⟨conn, hwrite, -⟩ | hdial
    · cases hwrite
    · cases hdial

theorem successful_switch_serves_packets :
    ∃ s session,
      handleUdpAssociate twoProxies (switchPackets (.ok ())) = some (s, session) ∧
      Coherent s ∧ ∀ i log, (i, log) ∈ session → Served twoProxies log := by
  refine ⟨_, _, rfl, association_coherent twoProxies (switchPackets (.ok ())) _ _ rfl
    (StepMachine.along_of_mem ?_ _)⟩
  intro i hi s handler hijack h _ _ _ _
  simp only [switchPackets, List.mem_cons, List.not_mem_nil, or_false] at hi
  rcases hi with rfl | rfl | rfl <;> rfl

end Coherence

section OwnOutbound

def dialHandler (o : Outbounds H) : OutboundType H → Option H
  | .reject => none
  | .direct _ handler => some (handler.getD o.defaultDirectHandler)
  | .proxy handler _ => some handler

/-- The connection was dialed for a direct packet of the session, through the
handler that packet's route names, and nothing was dialed since. -/
def DialedDirect (o : Outbounds H) (session : Session H) (conn : UdpConn H) : Prop :=
  ∃ before i log after, session = before ++ (i, log) :: after ∧
    (∃ resolved handler, log.route.outbound = .direct resolved handler) ∧
    dialHandler o log.route.outbound = some conn.via ∧
    log.dial = some (conn.via, some conn) ∧ ∀ event ∈ after, event.2.dial = none

/-- The last packet of the session may be written on the connection: through the
proxy its route names, or on the one socket for direct packets. -/
def RightOutbound (o : Outbounds H) (session : Session H) (outbound : OutboundType H)
    (conn : UdpConn H) : Prop :=
  match outbound with
  | .reject => False
  | .direct _ _ => DialedDirect o session conn
  | .proxy handler _ => conn.via = handler

structure OriginInv (o : Outbounds H) (session : Session H) (s : Association H) : Prop where
  proxy : ∀ h conn, s.currentHandler = some h → s.udpConn = some conn → conn.via = h
  direct : ∀ conn, s.currentHandler = none → s.udpConn = some conn → DialedDirect o session conn

omit [DecidableEq H] in
theorem DialedDirect.snoc {session : Session H} {conn : UdpConn H}
    (h : DialedDirect o session conn) (i : PacketIn H) {log : PacketLog H}
    (hdial : log.dial = none) : DialedDirect o (session ++ [(i, log)]) conn := by
  obtain ⟨before, i', log', after, rfl, hdirect, hvia, hdial', hafter⟩ := h
  refine ⟨before, i', log', after ++ [(i, log)], by simp, hdirect, hvia, hdial', ?_⟩
  intro event hmem
  rcases List.mem_append.mp hmem with hmem | hmem
  · exact hafter event hmem
  · rw [List.mem_singleton.mp hmem]
    exact hdial

omit [DecidableEq H] in
/-- A packet that dials nothing leaves the connection and its origin alone. -/
theorem OriginInv.keep {session : Session H} {s s' : Association H} (hinv : OriginInv o session s)
    (i : PacketIn H) {log : PacketLog H} (hconn : s'.udpConn = s.udpConn)
    (hcurrent : s'.currentHandler = s.currentHandler) (hnone : log.dial = none) :
    OriginInv o (session ++ [(i, log)]) s' := by
  constructor
  · simpa only [hconn, hcurrent] using hinv.proxy
  · intro conn hdirect hudpConn
    rw [hcurrent] at hdirect
    rw [hconn] at hudpConn
    exact (hinv.direct conn hdirect hudpConn).snoc i hnone

theorem OriginInv.step {session : Session H} {s s' : Association H} {i : PacketIn H}
    {log : PacketLog H} (hinv : OriginInv o session s) (h : s.step o i = some (s', log)) :
    OriginInv o (session ++ [(i, log)]) s' ∧
      ∀ conn, log.write = some conn →
        RightOutbound o (session ++ [(i, log)]) log.route.outbound conn := by
  obtain ⟨-, selected, hcase, hconn, hcurrent, hdial, hwrite⟩ := step_cases h
  generalize hout : log.route.outbound = outbound at hcase
  generalize i.dial = dial at hcase
  cases hcase with
  | rejected =>
      simp only [cacheRoute_frame] at hconn hcurrent
      exact ⟨hinv.keep i hconn hcurrent hdial, by simp [hwrite]⟩
  | directReused hudpConn hdirect =>
      simp only [cacheRoute_frame, if_true] at hconn hcurrent hwrite hdirect
      refine ⟨hinv.keep i hconn hcurrent hdial, ?_⟩
      intro conn' hconn'
      rw [hwrite] at hconn'
      exact (hinv.direct conn' hdirect hconn').snoc i hdial
  | @directDialed resolved handler conn hvia =>
      have horigin : DialedDirect o (session ++ [(i, log)]) conn :=
        ⟨session, i, log, [], rfl, ⟨resolved, handler, hout⟩, by simp [hout, dialHandler, hvia],
          hdial, by simp⟩
      refine ⟨⟨by simp [hcurrent], ?_⟩, ?_⟩
      · intro conn' _ hconn'
        rw [hconn] at hconn'
        cases hconn'
        exact horigin
      · intro conn' hconn'
        rw [hwrite] at hconn'
        cases hconn'
        exact horigin
  | directFailed => exact ⟨⟨by simp [hcurrent], by simp [hconn]⟩, by simp [hwrite]⟩
  | proxyForbidden =>
      simp only [cacheRoute_frame] at hconn hcurrent
      exact ⟨hinv.keep i hconn hcurrent hdial, by simp [hwrite]⟩
  | @proxyReused _ handler hijack hkept =>
      simp only [cacheRoute_frame, if_true] at hconn hcurrent hwrite hkept
      refine ⟨hinv.keep i hconn hcurrent hdial, ?_⟩
      intro conn hwritten
      rw [hwrite] at hwritten
      exact hinv.proxy handler conn hkept hwritten
  | @proxyDialed handler hijack conn hvia =>
      refine ⟨⟨?_, by simp [hcurrent]⟩, ?_⟩
      · intro h conn' hh hconn'
        rw [hcurrent] at hh
        rw [hconn] at hconn'
        cases hh
        cases hconn'
        exact hvia
      · intro conn' hconn'
        rw [hwrite] at hconn'
        cases hconn'
        exact hvia
  | proxyFailed => exact ⟨⟨by simp [hconn], by simp [hconn]⟩, by simp [hwrite]⟩

omit [DecidableEq H] in
theorem originInv_start : OriginInv o [] (Association.start H) :=
  ⟨by simp [Association.start], by simp [Association.start]⟩

/-- A packet for a proxy is written on a connection dialed through that proxy, a
direct packet on the direct socket, dialed through the handler of the direct packet
that opened it. -/
theorem packets_leave_through_right_outbound (o : Outbounds H) (packets : List (PacketIn H))
    (s : Association H) (session : Session H)
    (hrun : handleUdpAssociate o packets = some (s, session)) :
    ∀ before i log after conn, session = before ++ (i, log) :: after →
      log.write = some conn →
        RightOutbound o (before ++ [(i, log)]) log.route.outbound conn := by
  obtain ⟨-, hright⟩ := StepMachine.run_induction_events (P := OriginInv o)
    (Q := fun before i log => ∀ conn, log.write = some conn →
      RightOutbound o (before ++ [(i, log)]) log.route.outbound conn) hrun
    (StepMachine.along_trivial _ packets) originInv_start
    fun _ _ _ _ _ hinv _ hstep => hinv.step hstep
  intro before i log after conn hsplit hwrite
  exact hright before i log after hsplit conn hwrite

/-- The packet is not a direct one that finds the direct socket dialed through
another handler than its route names. -/
def OwnDirectSocket (o : Outbounds H) (s : Association H) (i : PacketIn H) : Prop :=
  ∀ resolved handler conn, (s.routeFor i).outbound = .direct resolved handler →
    s.currentHandler = none → s.udpConn = some conn →
      conn.via = handler.getD o.defaultDirectHandler

theorem OriginInv.own {session : Session H} {s s' : Association H} {i : PacketIn H}
    {log : PacketLog H} (hinv : OriginInv o session s) (hown : OwnDirectSocket o s i)
    (h : s.step o i = some (s', log)) {conn : UdpConn H} (hwritten : log.write = some conn) :
    dialHandler o log.route.outbound = some conn.via := by
  obtain ⟨hroute, selected, hcase, -, -, -, hwrite⟩ := step_cases h
  rw [hwrite] at hwritten
  generalize hout : log.route.outbound = outbound at hcase
  generalize i.dial = dial at hcase
  rw [hroute] at hout
  cases hcase with
  | @directReused _ resolved handler _ hudpConn hdirect =>
      simp only [cacheRoute_frame, if_true] at hwritten hdirect
      rw [dialHandler, hown resolved handler conn hout hdirect hwritten]
  | directDialed _ hvia =>
      cases hwritten
      rw [dialHandler, hvia]
  | @proxyReused _ handler _ hkept =>
      simp only [cacheRoute_frame, if_true] at hwritten hkept
      rw [dialHandler, hinv.proxy handler conn hkept hwritten]
  | proxyDialed _ hvia =>
      cases hwritten
      rw [dialHandler, hvia]
  | _ => cases hwritten

/-- In a session in which no direct packet finds the direct socket dialed through
another handler, every packet is written on a connection that was dialed through the
handler its own route names. -/
theorem packets_leave_through_own_outbound (o : Outbounds H) (packets : List (PacketIn H))
    (s : Association H) (session : Session H)
    (hrun : handleUdpAssociate o packets = some (s, session))
    (hown : StepMachine.Along (Association.step o) (OwnDirectSocket o)
      (Association.start H) packets) :
    ∀ i log conn, (i, log) ∈ session → log.write = some conn →
      dialHandler o log.route.outbound = some conn.via := by
  obtain ⟨-, hright⟩ := StepMachine.run_induction_events (P := OriginInv o)
    (Q := fun _ _ log => ∀ conn, log.write = some conn →
      dialHandler o log.route.outbound = some conn.via) hrun hown originInv_start
    fun _ _ _ _ _ hinv hi hstep => ⟨(hinv.step hstep).1, fun _ => hinv.own hi hstep⟩
  intro i log conn hmem hwrite
  exact StepMachine.forall_mem_of_split hright i log hmem conn hwrite

def twoDirects : Outbounds Nat where
  deref _ := .direct
  defaultDirectHandler := 0

def direct (port : UInt16) (handler : Nat) : PacketIn Nat where
  packet := ⟨.domain "example.com" port, [1]⟩
  routed := .direct none (some handler)
  dial := .ok ()
  write := .ok 1

/-- The packet for the direct outbound 2 is written on the socket dialed through
outbound 1. -/
theorem direct_socket_shared :
    ∃ s session, handleUdpAssociate twoDirects [direct 1 1, direct 2 2] = some (s, session) ∧
      ¬ ∀ i log conn, (i, log) ∈ session → log.write = some conn →
        dialHandler twoDirects log.route.outbound = some conn.via := by
  refine ⟨_, _, rfl, ?_⟩
  intro h
  have hown := h _ _ ⟨0, 1⟩ (List.mem_cons_of_mem _ List.mem_cons_self) rfl
  exact absurd hown (by decide)

theorem one_direct_outbound_keeps_packets :
    ∃ s session, handleUdpAssociate twoDirects [direct 1 1, direct 2 1] = some (s, session) ∧
      ∀ i log conn, (i, log) ∈ session → log.write = some conn →
        dialHandler twoDirects log.route.outbound = some conn.via := by
  refine ⟨_, _, rfl,
    packets_leave_through_own_outbound twoDirects [direct 1 1, direct 2 1] _ _ rfl ?_⟩
  refine StepMachine.along_cons rfl ?_ (StepMachine.along_cons rfl ?_ trivial)
  · rintro resolved handler conn - - hconn
    cases hconn
  · rintro resolved handler conn hroute - hconn
    cases hroute
    cases hconn
    rfl

theorem direct_socket_opened_by_first :
    ∃ s session, handleUdpAssociate twoDirects [direct 1 1, direct 2 2] = some (s, session) ∧
      DialedDirect twoDirects session ⟨0, 1⟩ :=
  ⟨_, _, rfl, packets_leave_through_right_outbound twoDirects [direct 1 1, direct 2 2] _ _ rfl
    [_] _ _ [] ⟨0, 1⟩ rfl rfl⟩

end OwnOutbound

end TrojanServer.UdpAssociate
