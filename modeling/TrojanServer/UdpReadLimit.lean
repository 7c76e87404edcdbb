import TrojanServer.UdpReassembly

namespace TrojanServer.UdpSession

open TrojanServer.AsyncIo
open TrojanServer.FrameDecoding
open TrojanServer.Protocol
open TrojanServer.Protocol.TrojanUdpPacket
open TrojanServer.StepMachine

/-- The distance of position `k` in the encoded packets from the start of the packet
it falls in. -/
def offsetInPacket : List TrojanUdpPacket → Nat → Nat
  | [], k => k
  | p :: packets, k =>
      if k < p.wire.length then k else offsetInPacket packets (k - p.wire.length)

theorem offsetInPacket_le (packets : List TrojanUdpPacket) (k : Nat) :
    offsetInPacket packets k ≤ k := by
  induction packets generalizing k with
  | nil => exact Nat.le_refl k
  | cons p packets ih =>
      unfold offsetInPacket
      split
      · exact Nat.le_refl k
      · exact (ih _).trans (Nat.sub_le k _)

theorem waiting_of_part {p : TrojanUdpPacket} (hp : p.Encodable) {part more : List UInt8}
    (hpart : part ++ more = p.wire) (hmore : more ≠ []) :
    decodeZerocopy part = (.needMoreData, part) := by
  rcases Nat.lt_or_ge part.length minSize with hsmall | hlarge
  · exact decodeZerocopy_undersized hsmall
  · have hlen : minSize ≤ (p.wire ++ []).length := by
      rw [List.append_nil, ← hpart, List.length_append]
      omega
    have hframe := decodeZerocopy_wire_append hp [] hlen
    rw [List.append_nil, ← hpart] at hframe
    exact stable_decodeZerocopy.waiting_of_part hframe hmore

/-- The undecoded rest reaches a bound exactly if the delivered bytes reach that far
into a packet. -/
theorem length_rest_lt_iff {bound : Nat} (hbound : minSize ≤ bound)
    {packets : List TrojanUdpPacket} (hpackets : ∀ p ∈ packets, p.Encodable)
    {bytes : List UInt8} (hbytes : bytes <+: packets.flatMap wire) :
    (drain decodeZerocopy bytes).rest.length < bound ↔
      offsetInPacket packets bytes.length < bound := by
  induction packets generalizing bytes with
  | nil =>
      obtain rfl : bytes = [] := by simpa using hbytes
      rfl
  | cons p packets ih =>
      obtain ⟨more, hmore⟩ := hbytes
      rw [List.flatMap_cons] at hmore
      unfold offsetInPacket
      rcases Nat.lt_or_ge bytes.length p.wire.length with hinside | hbeyond
      · obtain ⟨part, hpart, -⟩ : ∃ part, p.wire = bytes ++ part ∧ more = part ++ _ := by
          rcases List.append_eq_append_iff.mp hmore with ⟨part, hpart, hrest⟩ | ⟨part, hpart, -⟩
          · exact ⟨part, hpart, hrest⟩
          · exact absurd hinside (by rw [hpart, List.length_append]; omega)
        have hne : part ≠ [] := by
          rintro rfl
          rw [hpart, List.append_nil] at hinside
          exact Nat.lt_irrefl _ hinside
        rw [drain_needMoreData (waiting_of_part (hpackets p (by simp)) hpart.symm hne),
          if_pos hinside]
      · obtain ⟨after, rfl, hafter⟩ : ∃ after, bytes = p.wire ++ after ∧
            packets.flatMap wire = after ++ more := by
          rcases List.append_eq_append_iff.mp hmore with ⟨part, hpart, hrest⟩ | hsplit
          · have hnil : part = [] := by
              rw [hpart, List.length_append] at hbeyond
              exact List.length_eq_zero_iff.mp (by omega)
            subst hnil
            exact ⟨[], by simpa using hpart.symm, by simpa using hrest.symm⟩
          · exact hsplit
        rw [if_neg (Nat.not_lt.mpr hbeyond), List.length_append, Nat.add_sub_cancel_left]
        rcases Nat.lt_or_ge (p.wire ++ after).length minSize with hsmall | hlarge
        · have hoffset := offsetInPacket_le packets after.length
          rw [drain_needMoreData (decodeZerocopy_undersized hsmall)]
          rw [List.length_append] at hsmall ⊢
          exact ⟨fun _ => by omega, fun _ => by omega⟩
        · have hdecode := decodeZerocopy_wire_append (hpackets p (by simp)) after hlarge
          rw [drain_ok shrinks_decodeZerocopy hdecode]
          exact ih (fun q hq => hpackets q (by simp [hq])) ⟨more, hafter.symm⟩

variable {H : Type} [DecidableEq H]

theorem processPackets_ne_exceeded (w : World H) (fuel : Nat) (s : Session H)
    (hended : s.ended = none) :
    (processPackets w fuel s).1.ended ≠ some .readBufferExceeded := by
  induction fuel generalizing s with
  | zero => simp [processPackets, hended]
  | succ fuel ih =>
      simp only [processPackets]
      split
      · simp [hended]
      split
      · simp [hended]
      · simp
      · split
        · simp
        · split
          · simp
          · exact ih _ hended

theorem read_exceeds_iff (w : World H) {s : Session H} (hended : s.ended = none)
    (result : Except IoError (List UInt8)) :
    (s.read w result).1.ended = some .readBufferExceeded ↔
      udpMaxReadBufferSize ≤ s.readBuf.length := by
  unfold Session.read
  split
  · rename_i hlimit
    simp [Session.quit, hlimit]
  · rename_i hlimit
    simp only [hlimit, iff_false]
    split
    · simp [Session.quit]
    · simp [Session.quit]
    · exact processPackets_ne_exceeded w _ _ hended

/-- When a session fed with encoded packets is about to read, its buffer is below the
limit, and the read does not take the branch that ends the session, exactly if the
bytes delivered so far do not reach 64 KiB into an unfinished packet. -/
theorem read_limit_iff (w : World H) (packets : List TrojanUdpPacket)
    (initial : List UInt8) (events : List Event) (s : Session H) (trace : Trace H)
    (hpackets : ∀ p ∈ packets, p.Encodable)
    (hrun : handleUdpAssociate w initial events = some (s, trace))
    (hdelivered : initial ++ received trace <+: packets.flatMap fun p => encode p.addr p.payload)
    (hended : s.ended = none) (hpending : s.pendingBuffered = false) :
    (s.readBuf.length < udpMaxReadBufferSize ↔
        offsetInPacket packets (initial ++ received trace).length < udpMaxReadBufferSize) ∧
      ∀ result r, s.step w (.read result) = some r →
        (r.1.ended ≠ some .readBufferExceeded ↔
          offsetInPacket packets (initial ++ received trace).length < udpMaxReadBufferSize) := by
  have hdecoded := ((uplinkInv_run hrun).processed hpending).running hended
  have hlimit : minSize ≤ udpMaxReadBufferSize := by decide
  have hrest := length_rest_lt_iff hlimit hpackets hdelivered
  rw [hdecoded] at hrest
  refine ⟨hrest, ?_⟩
  intro result r hstep
  simp only [Session.step, hended, hpending, Bool.false_eq_true, if_false,
    Option.some.injEq] at hstep
  rw [← hstep, ne_eq, read_exceeds_iff w hended, Nat.not_le]
  exact hrest

theorem read_limit_of_cut : ∃ s trace,
    handleUdpAssociate rejectingWorld [1, 1, 2, 3, 4] [.buffered] = some (s, trace) ∧
      s.readBuf.length < udpMaxReadBufferSize := by
  obtain ⟨s, trace, hrun, hpart, hended, hpending⟩ : ∃ s trace,
      handleUdpAssociate rejectingWorld [1, 1, 2, 3, 4] [.buffered] = some (s, trace) ∧
        [1, 1, 2, 3, 4] ++ received trace <+:
          [1, 1, 2, 3, 4, 0, 53, 0, 1, 13, 10, 7] ∧ s.ended = none ∧
        s.pendingBuffered = false :=
    ⟨_, _, rfl, by decide, by decide, by decide⟩
  have hoffset := Nat.lt_of_le_of_lt
    (offsetInPacket_le [⟨.ipv4 ⟨[1, 2, 3, 4], rfl⟩ 53, [7]⟩] _)
    (Nat.lt_of_le_of_lt hpart.length_le (by decide : 12 < udpMaxReadBufferSize))
  exact ⟨s, trace, hrun, (read_limit_iff rejectingWorld [⟨.ipv4 ⟨[1, 2, 3, 4], rfl⟩ 53, [7]⟩] _ _
    s trace (by simpa using ⟨trivial, by decide⟩) hrun hpart hended hpending).1.mpr hoffset⟩

/-- Reads that stay inside a packet only fill the buffer; once it is full, the next
read ends the session. -/
theorem reads_exceed (w : World H) {p : TrojanUdpPacket} (hp : p.Encodable)
    {chunks : List (List UInt8)} {more : List UInt8} {s : Session H} (hended : s.ended = none)
    (hpending : s.pendingBuffered = false) (hchunks : ∀ chunk ∈ chunks, chunk ≠ [])
    (hwire : s.readBuf ++ chunks.flatten ++ more = p.wire) (hmore : more ≠ [])
    (hfull : (s.readBuf ++ chunks.flatten).length = udpMaxReadBufferSize)
    (result : Except IoError (List UInt8)) : ∃ s' trace,
      run (Session.step w) s (chunks.map (fun chunk => .read (.ok chunk)) ++ [.read result]) =
        some (s', trace) ∧ s'.ended = some .readBufferExceeded := by
  induction chunks generalizing s with
  | nil =>
      have hlen : udpMaxReadBufferSize ≤ s.readBuf.length := by simpa using hfull.ge
      have hstep : s.step w (.read result) = some (s.quit .readBufferExceeded) := by
        simp [Session.step, hended, hpending, Session.read, hlen]
      refine ⟨(s.quit .readBufferExceeded).1,
        [(.read result, (s.quit .readBufferExceeded).2)], ?_, rfl⟩
      simp [run, hstep]
  | cons chunk chunks ih =>
      have hne := hchunks chunk (by simp)
      have hroom : ¬ udpMaxReadBufferSize ≤ s.readBuf.length := by
        have hpos := List.length_pos_iff.mpr hne
        simp only [List.flatten_cons, List.length_append] at hfull
        omega
      have hwaiting : decodeZerocopy (s.readBuf ++ chunk) =
          (.needMoreData, s.readBuf ++ chunk) := by
        refine @waiting_of_part _ hp _ (chunks.flatten ++ more) ?_ ?_
        · simpa using hwire
        · simp [hmore]
      have hprocess : ({ s with readBuf := s.readBuf ++ chunk } : Session H).process w chunk =
          ({ s with readBuf := s.readBuf ++ chunk }, ⟨chunk, [], []⟩) := by
        obtain ⟨n, hn⟩ : ∃ n, (s.readBuf ++ chunk).length = n + 1 :=
          Nat.exists_eq_succ_of_ne_zero (by simp [hne])
        simp [Session.process, hn, processPackets, hwaiting]
      have hstep : s.step w (.read (.ok chunk)) =
          some ({ s with readBuf := s.readBuf ++ chunk }, ⟨chunk, [], []⟩) := by
        rw [← hprocess]
        obtain ⟨b, chunk, rfl⟩ := List.exists_cons_of_ne_nil hne
        simp [Session.step, hended, hpending, Session.read, hroom]
      obtain ⟨s', trace, hrun, hexceeded⟩ := ih (s := { s with readBuf := s.readBuf ++ chunk })
        hended hpending (fun c hc => hchunks c (by simp [hc])) (by simpa using hwire)
        (by simpa using hfull)
      exact ⟨s', _, run_cons hstep hrun, hexceeded⟩

def zeros (n : Nat) : List UInt8 := List.replicate n 0

theorem length_zeros (n : Nat) : (zeros n).length = n :=
  List.length_replicate ..

theorem zeros_add (m n : Nat) : zeros (m + n) = zeros m ++ zeros n :=
  List.replicate_add ..

/-- A packet to 1.2.3.4:53 with the largest payload. -/
def largestPacket : TrojanUdpPacket :=
  ⟨.ipv4 (1 ::ᵥ 2 ::ᵥ 3 ::ᵥ 4 ::ᵥ .nil) 53, zeros 65535⟩

def largestPacketHeader : List UInt8 := [1, 1, 2, 3, 4, 0, 53, 255, 255, 13, 10]

/-- Eight reads of 8192 bytes, after which ten bytes of the packet remain. -/
def largestPacketReads : List (List UInt8) :=
  (largestPacketHeader ++ zeros 8181) :: List.replicate 7 (zeros 8192)

theorem encode_largestPacket :
    encode largestPacket.addr largestPacket.payload = largestPacketHeader ++ zeros 65535 := by
  rw [encode, largestPacket, length_zeros]
  rfl

theorem flatten_largestPacketReads :
    largestPacketReads.flatten = largestPacketHeader ++ zeros 65525 := by
  rw [largestPacketReads, List.flatten_cons, zeros, zeros, List.flatten_replicate_replicate,
    List.append_assoc, ← List.replicate_add]
  rfl

/-- A session that only ever receives the largest packet dies on it. -/
theorem largest_packet_exceeds_limit :
    largestPacket.Encodable ∧
      (largestPacketReads ++ [zeros 10]).flatten =
        encode largestPacket.addr largestPacket.payload ∧
      (∀ chunk ∈ largestPacketReads ++ [zeros 10], chunk ≠ []) ∧
      ∃ s trace, handleUdpAssociate rejectingWorld []
          (largestPacketReads.map (fun chunk => .read (.ok chunk)) ++ [.read (.ok (zeros 10))]) =
            some (s, trace) ∧
        s.ended = some .readBufferExceeded := by
  have hencodable : largestPacket.Encodable := ⟨trivial, (length_zeros 65535).le⟩
  have hflatten : [] ++ largestPacketReads.flatten ++ zeros 10 = largestPacket.wire := by
    rw [wire, encode_largestPacket, flatten_largestPacketReads, List.nil_append,
      List.append_assoc, ← zeros_add]
  have hchunks : ∀ chunk ∈ largestPacketReads, chunk ≠ [] := by
    intro chunk hmem
    rcases List.mem_cons.mp hmem with rfl | hmem
    · simp [largestPacketHeader]
    · rw [List.eq_of_mem_replicate hmem]
      exact List.ne_nil_of_length_pos (by rw [length_zeros]; decide)
  have hlast : zeros 10 ≠ [] := List.ne_nil_of_length_pos (by rw [length_zeros]; decide)
  have hfull : ([] ++ largestPacketReads.flatten).length = udpMaxReadBufferSize := by
    rw [List.nil_append, flatten_largestPacketReads, List.length_append, length_zeros]
    rfl
  refine ⟨hencodable, ?_, ?_, ?_⟩
  · rw [List.nil_append] at hflatten
    rw [List.flatten_append, List.flatten_singleton, hflatten, wire]
  · intro chunk hmem
    rcases List.mem_append.mp hmem with hmem | hmem
    · exact hchunks chunk hmem
    · rw [List.mem_singleton.mp hmem]
      exact hlast
  · exact reads_exceed rejectingWorld hencodable (s := Session.start Unit []) rfl rfl hchunks
      hflatten hlast hfull _

end TrojanServer.UdpSession
