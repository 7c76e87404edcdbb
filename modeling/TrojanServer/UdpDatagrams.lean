import TrojanServer.UdpReassembly

namespace TrojanServer.UdpSession

open TrojanServer.AsyncIo
open TrojanServer.FrameDecoding
open TrojanServer.Hooks
open TrojanServer.Protocol
open TrojanServer.Protocol.TrojanUdpPacket
open TrojanServer.StepMachine
open TrojanServer.UdpAssociate (Association PacketIn PacketLog udpMaxConsecutiveErrors)

/-- The datagram of a reply that reached the client. -/
def deliveredBy : Event → Option TrojanUdpPacket
  | .reply (.ok (payload, fromAddr)) (.ok ()) _ => some ⟨aclAddrToAddress fromAddr, payload⟩
  | _ => none

def delivered {H : Type} (trace : Trace H) : List TrojanUdpPacket :=
  trace.filterMap fun entry => deliveredBy entry.1

@[simp] theorem delivered_snoc {H : Type} (trace : Trace H) (event : Event) (round : Round H) :
    delivered (trace ++ [(event, round)]) = delivered trace ++ (deliveredBy event).toList := by
  cases h : deliveredBy event <;> simp [delivered, h]

variable {H : Type} [DecidableEq H] {w : World H} {s s' : Session H} {event : Event}
  {round : Round H} {trace : Trace H} {initial : List UInt8}

/-- What one round of the loop can do. -/
inductive RoundCase (w : World H) (s : Session H) : Event → Session H → Round H → Prop
  | buffered (hwaiting : s.pendingBuffered = true) :
      RoundCase w s .buffered ({ s with pendingBuffered := false }.process w []).1
        ({ s with pendingBuffered := false }.process w []).2
  | full {result : Except IoError (List UInt8)} (hpending : s.pendingBuffered = false)
      (hfull : udpMaxReadBufferSize ≤ s.readBuf.length) :
      RoundCase w s (.read result) { s with ended := some .readBufferExceeded } ⟨[], [], []⟩
  | readFailed (e : IoError) (hpending : s.pendingBuffered = false)
      (hroom : s.readBuf.length < udpMaxReadBufferSize) :
      RoundCase w s (.read (.error e)) { s with ended := some .readError } ⟨[], [], []⟩
  | eof (hpending : s.pendingBuffered = false)
      (hroom : s.readBuf.length < udpMaxReadBufferSize) :
      RoundCase w s (.read (.ok [])) { s with ended := some .disconnected } ⟨[], [], []⟩
  | read {bytes : List UInt8} (hbytes : bytes ≠ []) (hpending : s.pendingBuffered = false)
      (hroom : s.readBuf.length < udpMaxReadBufferSize) :
      RoundCase w s (.read (.ok bytes)) ({ s with readBuf := s.readBuf ++ bytes }.process w bytes).1
        ({ s with readBuf := s.readBuf ++ bytes }.process w bytes).2
  | delivered (payload : List UInt8) (fromAddr : AclAddr) (now : Nat) :
      RoundCase w s (.reply (.ok (payload, fromAddr)) (.ok ()) now)
        { s with lastActivitySecs := now, recvErrors := 0 }
        ⟨[], [], encode (aclAddrToAddress fromAddr) payload⟩
  | responseFailed (payload : List UInt8) (fromAddr : AclAddr) (message : String) (now : Nat) :
      RoundCase w s (.reply (.ok (payload, fromAddr)) (.error message) now)
        { s with ended := some .responseFailed }
        ⟨[], [], encode (aclAddrToAddress fromAddr) payload⟩
  | recvFailed (message : String) (written : Except String Unit) (now : Nat)
      (hfew : s.recvErrors + 1 < udpMaxConsecutiveErrors) :
      RoundCase w s (.reply (.error message) written now)
        { s with recvErrors := s.recvErrors + 1 } ⟨[], [], []⟩
  | recvErrors (message : String) (written : Except String Unit) (now : Nat)
      (hmany : udpMaxConsecutiveErrors ≤ s.recvErrors + 1) :
      RoundCase w s (.reply (.error message) written now)
        { s with recvErrors := s.recvErrors + 1, ended := some .recvErrors } ⟨[], [], []⟩
  | idle {now : Nat} (hidle : w.idleTimeoutSecs ≤ now - s.lastActivitySecs) :
      RoundCase w s (.idleTick now) { s with ended := some .idleTimeout } ⟨[], [], []⟩
  | active {now : Nat} (hactive : now - s.lastActivitySecs < w.idleTimeoutSecs) :
      RoundCase w s (.idleTick now) s ⟨[], [], []⟩
  | kicked : RoundCase w s .kicked { s with ended := some .kicked } ⟨[], [], []⟩

theorem roundCase_of_step (h : s.step w event = some (s', round)) :
    s.ended = none ∧ RoundCase w s event s' round := by
  simp only [Session.step] at h
  split at h
  · cases h
  rename_i hended
  refine ⟨hended, ?_⟩
  cases event with
  | buffered =>
      obtain ⟨hwaiting, heq⟩ := Option.ite_none_right_eq_some.mp h
      cases heq
      exact .buffered hwaiting
  | read result =>
      obtain ⟨hpending, heq⟩ := Option.ite_none_left_eq_some.mp h
      have hpending : s.pendingBuffered = false := by simpa using hpending
      simp only [Session.read] at heq
      split at heq
      · rename_i hfull
        cases heq
        exact .full hpending hfull
      rename_i hroom
      have hroom := Nat.lt_of_not_le hroom
      split at heq
      · cases heq
        exact .readFailed _ hpending hroom
      · cases heq
        exact .eof hpending hroom
      · rename_i bytes hbytes
        cases heq
        exact .read hbytes hpending hroom
  | reply received written now =>
      obtain ⟨-, heq⟩ := Option.ite_none_right_eq_some.mp h
      rcases received with message | ⟨payload, fromAddr⟩
      · simp only [Session.reply] at heq
        split at heq
        · rename_i hmany
          cases heq
          exact .recvErrors message written now hmany
        · rename_i hfew
          cases heq
          exact .recvFailed message written now (Nat.lt_of_not_le hfew)
      · rcases written with message | ⟨⟩
        · cases heq
          exact .responseFailed payload fromAddr message now
        · cases heq
          exact .delivered payload fromAddr now
  | idleTick now =>
      simp only at h
      split at h
      · rename_i hidle
        cases h
        exact .idle hidle
      · rename_i hactive
        cases h
        exact .active (Nat.lt_of_not_le hactive)
  | kicked =>
      cases h
      exact .kicked

section Uplink

/-- The loop over the buffer handles packets in their order, and may stop before the last. -/
theorem processPackets_values (w : World H) (fuel : Nat) (s : Session H) :
    (processPackets w fuel s).2.map Prod.fst <+: (drain decodeZerocopy s.readBuf).values := by
  induction fuel generalizing s with
  | zero => exact List.nil_prefix
  | succ fuel ih =>
      simp only [processPackets]
      split
      · exact List.nil_prefix
      split
      · exact List.nil_prefix
      · exact List.nil_prefix
      · rename_i packet consumed rest hdecode
        rw [drain_ok shrinks_decodeZerocopy hdecode]
        split
        · exact List.nil_prefix
        split
        · exact List.cons_prefix_cons.mpr ⟨rfl, List.nil_prefix⟩
        · exact List.cons_prefix_cons.mpr ⟨rfl, ih _⟩

structure Handled (initial : List UInt8) (trace : Trace H) (s : Session H) : Prop where
  uplink : UplinkInv initial trace s
  values : decoded trace <+: (drain decodeZerocopy (initial ++ received trace)).values
  disconnected : s.ended = some .disconnected →
    decoded trace = (drain decodeZerocopy (initial ++ received trace)).values

omit [DecidableEq H] in
/-- A round that neither reads nor decodes. -/
theorem Handled.same (h : Handled initial trace s)
    (huplink : UplinkInv initial (trace ++ [(event, round)]) s')
    (hreceived : round.received = []) (hpackets : round.packets = [])
    (hdisconnected : s'.ended = some .disconnected → s.ended = none ∧ s.pendingBuffered = false) :
    Handled initial (trace ++ [(event, round)]) s' := by
  have hdecoded : decoded (trace ++ [(event, round)]) = decoded trace := by simp [hpackets]
  have hbytes : received (trace ++ [(event, round)]) = received trace := by simp [hreceived]
  refine ⟨huplink, ?_, fun hend => ?_⟩
  · rw [hdecoded, hbytes]
    exact h.values
  · obtain ⟨hended, hpending⟩ := hdisconnected hend
    rw [hdecoded, hbytes, (h.uplink.processed hpending).running hended]

theorem processPackets_ended (w : World H) (fuel : Nat) (s : Session H)
    (hended : s.ended = none) : (processPackets w fuel s).1.ended ≠ some .disconnected := by
  induction fuel generalizing s with
  | zero => simp [processPackets, hended]
  | succ fuel ih =>
      simp only [processPackets]
      split
      · simp [hended]
      split
      · simp [hended]
      · simp
      · split
        · simp
        split
        · simp
        · exact ih _ hended

/-- A round that processes the buffer, given what one loop over all bytes makes of it. -/
theorem handled_process {base : Session H} {bytes : List UInt8}
    (huplink : UplinkInv initial (trace ++ [(event, (base.process w bytes).2)])
      (base.process w bytes).1) (hended : base.ended = none)
    (hall : (drain decodeZerocopy (initial ++ received trace ++ bytes)).values =
      decoded trace ++ (drain decodeZerocopy base.readBuf).values) :
    Handled initial (trace ++ [(event, (base.process w bytes).2)]) (base.process w bytes).1 := by
  refine ⟨huplink, ?_, ?_⟩
  · rw [decoded_snoc, received_snoc, ← List.append_assoc]
    change _ <+: (drain decodeZerocopy (initial ++ received trace ++ bytes)).values
    rw [hall]
    exact (List.prefix_append_right_inj _).mpr
      (processPackets_values w base.readBuf.length base)
  · intro hdisconnected
    exact absurd hdisconnected (processPackets_ended w base.readBuf.length base hended)

theorem Handled.step (h : Handled initial trace s) (hstep : s.step w event = some (s', round)) :
    Handled initial (trace ++ [(event, round)]) s' := by
  have huplink := h.uplink.step hstep
  obtain ⟨hended, hcase⟩ := roundCase_of_step hstep
  cases hcase with
  | buffered hwaiting =>
      obtain ⟨hinitial, hnone, hnothing, -⟩ := h.uplink.unprocessed hwaiting
      apply handled_process huplink hended
      rw [hnone, hnothing, ← hinitial]
      simp
  | read hbytes hpending hroom =>
      apply handled_process huplink hended
      have hbefore := (h.uplink.processed hpending).running hended
      rw [drain_append_of_no_error shrinks_decodeZerocopy stable_decodeZerocopy (by rw [hbefore]),
        hbefore]
  | eof hpending hroom => exact h.same huplink rfl rfl fun _ => ⟨hended, hpending⟩
  | full => exact h.same huplink rfl rfl (by simp)
  | readFailed => exact h.same huplink rfl rfl (by simp)
  | delivered => exact h.same huplink rfl rfl (by simp [hended])
  | responseFailed => exact h.same huplink rfl rfl (by simp)
  | recvFailed => exact h.same huplink rfl rfl (by simp [hended])
  | recvErrors => exact h.same huplink rfl rfl (by simp)
  | idle => exact h.same huplink rfl rfl (by simp)
  | active => exact h.same huplink rfl rfl (by simp [hended])
  | kicked => exact h.same huplink rfl rfl (by simp)

omit [DecidableEq H] in
theorem handled_start (initial : List UInt8) : Handled initial [] (Session.start H initial) where
  uplink := uplinkInv_start initial
  values := List.nil_prefix
  disconnected := by simp [Session.start]

end Uplink

section Association

omit [DecidableEq H]

def packets (trace : Trace H) : List (TrojanUdpPacket × PacketLog H) :=
  trace.flatMap fun entry => entry.2.packets

@[simp] theorem packets_snoc (trace : Trace H) (event : Event) (round : Round H) :
    packets (trace ++ [(event, round)]) = packets trace ++ round.packets := by
  simp [packets]

def packetIn (w : World H) (k : Nat) (packet : TrojanUdpPacket) : PacketIn H :=
  ⟨packet, (w.answers k).routed, (w.answers k).dial, (w.answers k).write⟩

/-- The packets as the association saw them; the first has number `k`. -/
def association (w : World H) (k : Nat) (ps : List (TrojanUdpPacket × PacketLog H)) :
    UdpAssociate.Session H :=
  (ps.zipIdx k).map fun (p, i) => (packetIn w i p.1, p.2)

theorem association_append (w : World H) (k : Nat)
    (ps ps' : List (TrojanUdpPacket × PacketLog H)) :
    association w k (ps ++ ps') = association w k ps ++ association w (k + ps.length) ps' := by
  rw [association, List.zipIdx_append, List.map_append]
  rfl

variable [DecidableEq H]

/-- The loop over the buffer is a run of the association. -/
theorem run_of_processPackets (w : World H) (fuel : Nat) (s : Session H) :
    ∃ inputs, run (Association.step w.outbounds) s.assoc inputs =
      some ((processPackets w fuel s).1.assoc,
        association w s.handled (processPackets w fuel s).2) := by
  induction fuel generalizing s with
  | zero => exact ⟨[], rfl⟩
  | succ fuel ih =>
      simp only [processPackets]
      split
      · exact ⟨[], rfl⟩
      split
      · exact ⟨[], rfl⟩
      · exact ⟨[], rfl⟩
      · rename_i packet consumed rest hdecode
        split
        · exact ⟨[], rfl⟩
        · rename_i assoc log hstep
          split
          · exact ⟨[packetIn w s.handled packet], run_cons hstep rfl⟩
          · obtain ⟨inputs, hrest⟩ := ih { s with
              readBuf := rest
              assoc := assoc
              handled := s.handled + 1
              lastActivitySecs := if log.upload.isSome then (w.answers s.handled).now
                else s.lastActivitySecs }
            exact ⟨packetIn w s.handled packet :: inputs, run_cons hstep hrest⟩

theorem handled_processPackets (w : World H) (fuel : Nat) (s : Session H) :
    (processPackets w fuel s).1.handled = s.handled + (processPackets w fuel s).2.length := by
  induction fuel generalizing s with
  | zero => rfl
  | succ fuel ih =>
      simp only [processPackets]
      split
      · rfl
      split
      · rfl
      · rfl
      · split
        · rfl
        · split
          · rfl
          · simp only [ih, List.length_cons]
            omega

/-- The association of a session, and the packets it has seen. -/
structure Associated (w : World H) (trace : Trace H) (s : Session H) : Prop where
  run : ∃ inputs, UdpAssociate.handleUdpAssociate w.outbounds inputs =
    some (s.assoc, association w 0 (packets trace))
  handled : s.handled = (packets trace).length

theorem Associated.process {base : Session H} {bytes : List UInt8} (h : Associated w trace s)
    (hassoc : base.assoc = s.assoc) (hhandled : base.handled = s.handled) :
    Associated w (trace ++ [(event, (base.process w bytes).2)]) (base.process w bytes).1 := by
  obtain ⟨inputs, hrun⟩ := h.run
  obtain ⟨more, hmore⟩ := run_of_processPackets w base.readBuf.length base
  have hstart : base.handled = 0 + (packets trace).length := by
    rw [hhandled, h.handled, Nat.zero_add]
  rw [hassoc, hstart] at hmore
  refine ⟨⟨inputs ++ more, ?_⟩, ?_⟩
  · rw [packets_snoc, association_append]
    exact run_append hrun hmore
  · rw [packets_snoc, List.length_append, ← h.handled, ← hhandled]
    exact handled_processPackets w base.readBuf.length base

theorem Associated.same (h : Associated w trace s) (hassoc : s'.assoc = s.assoc)
    (hhandled : s'.handled = s.handled) (hpackets : round.packets = []) :
    Associated w (trace ++ [(event, round)]) s' where
  run := by
    rw [packets_snoc, hpackets, List.append_nil, hassoc]
    exact h.run
  handled := by rw [packets_snoc, hpackets, List.append_nil, hhandled, h.handled]

theorem Associated.step (h : Associated w trace s) (hstep : s.step w event = some (s', round)) :
    Associated w (trace ++ [(event, round)]) s' := by
  obtain ⟨-, hcase⟩ := roundCase_of_step hstep
  cases hcase with
  | buffered hwaiting => exact h.process rfl rfl
  | read hbytes hpending hroom => exact h.process rfl rfl
  | _ => exact h.same rfl rfl rfl

theorem associated_start (w : World H) (initial : List UInt8) :
    Associated w [] (Session.start H initial) :=
  ⟨⟨[], rfl⟩, rfl⟩

/-- A session runs its association. -/
theorem associated_of_run {events : List Event}
    (hrun : handleUdpAssociate w initial events = some (s, trace)) : Associated w trace s :=
  run_induction hrun (associated_start w initial) fun _ _ _ _ _ h hstep => h.step hstep

end Association

/-- Every packet goes out directly, and every write succeeds. -/
def directWorld : World Unit where
  outbounds := ⟨fun _ => .reject, ()⟩
  answers := fun _ => ⟨.direct none none, .ok (), .ok 1, 0⟩
  idleTimeoutSecs := 300

end TrojanServer.UdpSession
