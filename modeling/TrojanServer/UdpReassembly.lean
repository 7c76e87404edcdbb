import TrojanServer.UdpFraming
import TrojanServer.UdpSession

namespace TrojanServer.UdpSession

open TrojanServer.AsyncIo
open TrojanServer.FrameDecoding
open TrojanServer.Protocol
open TrojanServer.Protocol.TrojanUdpPacket
open TrojanServer.StepMachine

variable {H : Type}

/-- A session that goes on, or has given up on an invalid packet, has decoded what
one loop over the bytes decodes. -/
structure Decodes (bytes : List UInt8) (packets : List TrojanUdpPacket) (s : Session H) :
    Prop where
  running : s.ended = none → drain decodeZerocopy bytes = ⟨packets, s.readBuf, none⟩
  gaveUp : ∀ message, s.ended = some (.invalidPacket message) →
    (drain decodeZerocopy bytes).values = packets ∧
      (drain decodeZerocopy bytes).error = some message

theorem decodes_of_quit {bytes : List UInt8} {packets : List TrojanUdpPacket} {s : Session H}
    {cause : SessionEnd} (hended : s.ended = some cause)
    (hcause : ∀ message, cause ≠ .invalidPacket message) : Decodes bytes packets s where
  running := by simp [hended]
  gaveUp := by
    intro message h
    rw [hended, Option.some.injEq] at h
    exact absurd h (hcause message)

theorem Decodes.cons {bytes rest : List UInt8} {packet : TrojanUdpPacket} {consumed : Nat}
    {packets : List TrojanUdpPacket} {s : Session H} (h : Decodes rest packets s)
    (hdecode : decodeZerocopy bytes = (.ok packet consumed, rest)) :
    Decodes bytes (packet :: packets) s := by
  have hdrain := drain_ok shrinks_decodeZerocopy hdecode
  refine ⟨fun hrunning => ?_, fun message hgaveUp => ?_⟩
  · rw [hdrain, h.running hrunning]
  · rw [hdrain]
    obtain ⟨hvalues, herror⟩ := h.gaveUp message hgaveUp
    exact ⟨congrArg (packet :: ·) hvalues, herror⟩

theorem processPackets_decodes [DecidableEq H] (w : World H) (fuel : Nat) (s : Session H)
    (hended : s.ended = none) (hfuel : s.readBuf.length ≤ fuel) :
    Decodes s.readBuf ((processPackets w fuel s).2.map Prod.fst) (processPackets w fuel s).1 := by
  induction fuel generalizing s with
  | zero =>
      have hempty : s.readBuf = [] := List.length_eq_zero_iff.mp (Nat.le_zero.mp hfuel)
      refine ⟨fun _ => ?_, ?_⟩
      · simp [processPackets, hempty, drain, drainFuel]
      · simp [processPackets, hended]
  | succ fuel ih =>
      rcases drain_cases decodeZerocopy s.readBuf with hempty | hdecode | hdecode | ⟨hne, hdecode⟩
      · refine ⟨fun _ => ?_, ?_⟩
        · simp [processPackets, hempty, drain, drainFuel]
        · simp [processPackets, hempty, hended]
      · rename_i packet consumed rest
        have hlt := shrinks_decodeZerocopy _ _ _ _ hdecode
        have hne : s.readBuf ≠ [] := by
          rintro hempty
          simp [hempty] at hlt
        simp only [processPackets, List.isEmpty_iff, hne, if_false, hdecode]
        split
        · exact decodes_of_quit rfl (by simp)
        rename_i assoc log hstep
        split
        · exact decodes_of_quit rfl (by simp)
        · exact Decodes.cons (ih _ hended (Nat.le_of_lt_succ (hlt.trans_le hfuel))) hdecode
      · rename_i rest
        cases stable_decodeZerocopy.waiting hdecode
        have hprocess : processPackets w (fuel + 1) s = (s, []) := by
          simp [processPackets, hdecode]
        rw [hprocess]
        refine ⟨fun _ => ?_, ?_⟩
        · rw [drain_needMoreData hdecode]
          rfl
        · simp [hended]
      · simp only [processPackets, List.isEmpty_iff, hne, if_false, hdecode]
        refine ⟨by simp, fun message h => ?_⟩
        rw [drain_invalid hne hdecode]
        simp only [Option.some.injEq, SessionEnd.invalidPacket.injEq] at h
        exact ⟨rfl, congrArg some h⟩

theorem processPackets_pendingBuffered [DecidableEq H] (w : World H) (fuel : Nat) (s : Session H) :
    (processPackets w fuel s).1.pendingBuffered = s.pendingBuffered := by
  induction fuel generalizing s with
  | zero => rfl
  | succ fuel ih =>
      simp only [processPackets]
      split
      · rfl
      split
      · rfl
      · rfl
      · split
        · rfl
        · split
          · rfl
          · exact ih _

theorem process_decodes [DecidableEq H] (w : World H) {s : Session H} (hended : s.ended = none)
    (bytes : List UInt8) : Decodes s.readBuf ((s.process w bytes).2.packets.map Prod.fst)
      (s.process w bytes).1 :=
  processPackets_decodes w s.readBuf.length s hended (Nat.le_refl _)

theorem process_pendingBuffered [DecidableEq H] (w : World H) (s : Session H)
    (bytes : List UInt8) : (s.process w bytes).1.pendingBuffered = s.pendingBuffered :=
  processPackets_pendingBuffered w s.readBuf.length s

/-- More bytes for a session that has decoded what it was given. -/
theorem Decodes.extend {bytes more : List UInt8} {packets packets' : List TrojanUdpPacket}
    {s s' : Session H} (h : Decodes bytes packets s) (hended : s.ended = none)
    (h' : Decodes (s.readBuf ++ more) packets' s') :
    Decodes (bytes ++ more) (packets ++ packets') s' := by
  have hbefore := h.running hended
  have hafter := drain_append_of_no_error shrinks_decodeZerocopy stable_decodeZerocopy
    (show (drain decodeZerocopy bytes).error = none by rw [hbefore]) more
  rw [hbefore] at hafter
  refine ⟨fun hrunning => ?_, fun message hgaveUp => ?_⟩
  · rw [hafter, h'.running hrunning]
  · rw [hafter]
    obtain ⟨hvalues, herror⟩ := h'.gaveUp message hgaveUp
    exact ⟨by rw [hvalues], herror⟩

/-- The initial payload waits in the buffer until it is processed, once. -/
structure UplinkInv (initial : List UInt8) (trace : Trace H) (s : Session H) : Prop where
  unprocessed : s.pendingBuffered = true →
    s.readBuf = initial ∧ received trace = [] ∧ decoded trace = [] ∧
      ∀ message, s.ended ≠ some (.invalidPacket message)
  processed : s.pendingBuffered = false →
    Decodes (initial ++ received trace) (decoded trace) s

theorem uplinkInv_start (initial : List UInt8) :
    UplinkInv initial [] (Session.start H initial) where
  unprocessed := fun _ => ⟨rfl, rfl, rfl, by simp [Session.start]⟩
  processed := by
    intro hpending
    have hempty : initial = [] := by simpa [Session.start] using hpending
    subst hempty
    exact ⟨fun _ => rfl, by simp [Session.start]⟩

/-- A round that neither reads nor decodes, and does not give up on a packet. -/
theorem UplinkInv.of_frame {initial : List UInt8} {trace : Trace H} {s s' : Session H}
    {event : Event} {round : Round H} (h : UplinkInv initial trace s) (hended : s.ended = none)
    (hbuf : s'.readBuf = s.readBuf) (hpending : s'.pendingBuffered = s.pendingBuffered)
    (hcause : ∀ message, s'.ended ≠ some (.invalidPacket message))
    (hreceived : round.received = []) (hpackets : round.packets = []) :
    UplinkInv initial (trace ++ [(event, round)]) s' where
  unprocessed := by
    intro hwaiting
    rw [hpending] at hwaiting
    obtain ⟨hinitial, hnone, hnothing, -⟩ := h.unprocessed hwaiting
    exact ⟨hbuf.trans hinitial, by simp [hnone, hreceived], by simp [hnothing, hpackets], hcause⟩
  processed := by
    intro hdone
    rw [hpending] at hdone
    simp only [received_snoc, decoded_snoc, hreceived, hpackets, List.map_nil, List.append_nil]
    refine ⟨fun _ => ?_, fun message hgaveUp => absurd hgaveUp (hcause message)⟩
    rw [hbuf]
    exact (h.processed hdone).running hended

theorem UplinkInv.quit {initial : List UInt8} {trace : Trace H} {s : Session H} {event : Event}
    {cause : SessionEnd} (h : UplinkInv initial trace s) (hended : s.ended = none)
    (hcause : ∀ message, cause ≠ .invalidPacket message) :
    UplinkInv initial (trace ++ [(event, (s.quit cause).2)]) (s.quit cause).1 :=
  h.of_frame hended rfl rfl (by simpa [Session.quit] using hcause) rfl rfl

theorem reply_frame (s : Session H)
    (result : Except String (List UInt8 × Hooks.AclAddr)) (written : Except String Unit)
    (now : Nat) (hended : s.ended = none) :
    (s.reply result written now).1.readBuf = s.readBuf ∧
      (s.reply result written now).1.pendingBuffered = s.pendingBuffered ∧
      (∀ message, (s.reply result written now).1.ended ≠ some (.invalidPacket message)) ∧
      (s.reply result written now).2.received = [] ∧
      (s.reply result written now).2.packets = [] := by
  unfold Session.reply
  split
  · split <;> simp [hended]
  · simp only
    split <;> simp [Session.quit, hended]

theorem UplinkInv.buffered [DecidableEq H] {w : World H} {initial : List UInt8}
    {trace : Trace H} {s : Session H} (h : UplinkInv initial trace s) (hended : s.ended = none)
    (hwaiting : s.pendingBuffered = true) {r : Session H × Round H}
    (hr : { s with pendingBuffered := false }.process w [] = r) :
    UplinkInv initial (trace ++ [(.buffered, r.2)]) r.1 := by
  obtain ⟨hinitial, hnone, hnothing, -⟩ := h.unprocessed hwaiting
  have hkept := process_pendingBuffered w { s with pendingBuffered := false } []
  have hprocess := process_decodes w (s := { s with pendingBuffered := false }) hended []
  rw [hr] at hkept hprocess
  refine ⟨by simp [hkept], fun _ => ?_⟩
  have hreceived : r.2.received = [] := by
    rw [← hr]
    rfl
  simp only [received_snoc, decoded_snoc, hnone, hnothing, hreceived, List.append_nil,
    List.nil_append]
  exact hinitial ▸ hprocess

theorem UplinkInv.read [DecidableEq H] {w : World H} {initial : List UInt8} {trace : Trace H}
    {s : Session H} (h : UplinkInv initial trace s) (hended : s.ended = none)
    (hpending : s.pendingBuffered = false) {bytes : List UInt8}
    {result : Except IoError (List UInt8)} {r : Session H × Round H}
    (hr : { s with readBuf := s.readBuf ++ bytes }.process w bytes = r) :
    UplinkInv initial (trace ++ [(.read result, r.2)]) r.1 := by
  have hkept := process_pendingBuffered w { s with readBuf := s.readBuf ++ bytes } bytes
  have hprocess := process_decodes w (s := { s with readBuf := s.readBuf ++ bytes }) hended bytes
  rw [hr] at hkept hprocess
  refine ⟨by simp [hkept, hpending], fun _ => ?_⟩
  have hreceived : r.2.received = bytes := by
    rw [← hr]
    rfl
  simp only [received_snoc, decoded_snoc, hreceived, ← List.append_assoc]
  exact (h.processed hpending).extend hended hprocess

theorem UplinkInv.step [DecidableEq H] {w : World H} {initial : List UInt8} {trace : Trace H}
    {s : Session H} {event : Event} {r : Session H × Round H} (h : UplinkInv initial trace s)
    (hstep : s.step w event = some r) : UplinkInv initial (trace ++ [(event, r.2)]) r.1 := by
  simp only [Session.step] at hstep
  split at hstep
  · cases hstep
  rename_i hended
  cases event with
  | buffered =>
      simp only [Option.ite_none_right_eq_some, Option.some.injEq] at hstep
      exact h.buffered hended hstep.1 hstep.2
  | read result =>
      simp only [Option.ite_none_left_eq_some, Option.some.injEq] at hstep
      obtain ⟨hpending, rfl⟩ := hstep
      unfold Session.read
      split
      · exact h.quit hended (by simp)
      split
      · exact h.quit hended (by simp)
      · exact h.quit hended (by simp)
      · exact h.read hended (by simpa using hpending) rfl
  | reply result written now =>
      simp only [Option.ite_none_right_eq_some, Option.some.injEq] at hstep
      obtain ⟨-, rfl⟩ := hstep
      obtain ⟨hbuf, hpending, hcause, hreceived, hpackets⟩ :=
        reply_frame s result written now hended
      exact h.of_frame hended hbuf hpending hcause hreceived hpackets
  | idleTick now =>
      simp only at hstep
      split at hstep
      · cases hstep
        exact h.quit hended (by simp)
      · cases hstep
        exact h.of_frame hended rfl rfl (by simp [hended]) rfl rfl
  | kicked =>
      cases hstep
      exact h.quit hended (by simp)

theorem uplinkInv_run [DecidableEq H] {w : World H} {initial : List UInt8} {events : List Event}
    {s : Session H} {trace : Trace H}
    (hrun : handleUdpAssociate w initial events = some (s, trace)) : UplinkInv initial trace s :=
  run_induction hrun (uplinkInv_start initial) fun _ _ _ _ _ h hstep => h.step hstep

/-- Whatever the cuts of the stream and the other branches: a session to which all of
`stream` was delivered, or that gave up on an invalid packet before, has decoded the
packets of one loop over `stream`, gave up iff that loop does, and otherwise has the
same bytes left. -/
theorem uplink_independent_of_chunking [DecidableEq H] (w : World H) (initial : List UInt8)
    (events : List Event) (s : Session H) (trace : Trace H) (stream undelivered : List UInt8)
    (hrun : handleUdpAssociate w initial events = some (s, trace))
    (hstream : stream = initial ++ received trace ++ undelivered)
    (hdelivered : s.ended = none → undelivered = [] ∧ s.pendingBuffered = false)
    (hcause : ∀ cause, s.ended = some cause → ∃ message, cause = .invalidPacket message) :
    decoded trace = (drain decodeZerocopy stream).values ∧
      (∀ message, s.ended = some (.invalidPacket message) ↔
        (drain decodeZerocopy stream).error = some message) ∧
      (s.ended = none → s.readBuf = (drain decodeZerocopy stream).rest) := by
  have hinv := uplinkInv_run hrun
  subst hstream
  cases hended : s.ended with
  | none =>
      obtain ⟨rfl, hpending⟩ := hdelivered hended
      rw [List.append_nil, (hinv.processed hpending).running hended]
      simp
  | some cause =>
      obtain ⟨message, rfl⟩ := hcause cause hended
      have hpending : s.pendingBuffered = false := by
        cases hpending : s.pendingBuffered with
        | false => rfl
        | true => exact absurd hended ((hinv.unprocessed hpending).2.2.2 message)
      obtain ⟨hvalues, herror⟩ := (hinv.processed hpending).gaveUp message hended
      obtain ⟨hvalues', herror'⟩ := drain_append_of_error shrinks_decodeZerocopy
        stable_decodeZerocopy herror undelivered
      rw [hvalues', hvalues, herror']
      simp

def rejectingWorld : World Unit where
  outbounds := ⟨fun _ => .reject, ()⟩
  answers := fun _ => ⟨.reject, .ok (), .ok 0, 0⟩
  idleTimeoutSecs := 300

/-- Two packets to 1.2.3.4:53. -/
def twoPackets : List UInt8 :=
  [1, 1, 2, 3, 4, 0, 53, 0, 1, 13, 10, 7, 1, 1, 2, 3, 4, 0, 53, 0, 0, 13, 10]

theorem uplink_independent_of_cuts : ∃ s trace,
    handleUdpAssociate rejectingWorld [1, 1, 2, 3, 4]
        [.idleTick 0, .buffered, .read (.ok [0, 53, 0, 1, 13, 10, 7, 1, 1, 2]), .idleTick 30,
          .read (.ok [3, 4, 0, 53, 0, 0, 13, 10])] = some (s, trace) ∧
      s.ended = none ∧ (decoded trace).length = 2 ∧
      decoded trace = (drain decodeZerocopy twoPackets).values := by
  obtain ⟨s, trace, hrun, hstream, hended, hpending, hlength⟩ : ∃ s trace,
      handleUdpAssociate rejectingWorld [1, 1, 2, 3, 4]
          [.idleTick 0, .buffered, .read (.ok [0, 53, 0, 1, 13, 10, 7, 1, 1, 2]), .idleTick 30,
            .read (.ok [3, 4, 0, 53, 0, 0, 13, 10])] = some (s, trace) ∧
        twoPackets = [1, 1, 2, 3, 4] ++ received trace ++ [] ∧ s.ended = none ∧
        s.pendingBuffered = false ∧ (decoded trace).length = 2 :=
    ⟨_, _, rfl, by decide, by decide, by decide, by decide⟩
  refine ⟨s, trace, hrun, hended, hlength, ?_⟩
  exact (uplink_independent_of_chunking rejectingWorld _ _ s trace twoPackets [] hrun hstream
    (fun _ => ⟨rfl, hpending⟩) (by simp [hended])).1

end TrojanServer.UdpSession
