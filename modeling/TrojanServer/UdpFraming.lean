import TrojanServer.AddressCodec
import TrojanServer.StableDecoding

namespace TrojanServer.Protocol.TrojanUdpPacket

open TrojanServer.FrameDecoding

structure Encodable (p : TrojanUdpPacket) : Prop where
  addr : p.addr.Encodable
  payload : p.payload.length ≤ 65535

def wire (p : TrojanUdpPacket) : List UInt8 := encode p.addr p.payload

/-- A domain packet that together with what follows it stays below the minimum
size. -/
def Undersized (p : TrojanUdpPacket) (rest : List UInt8) : Prop :=
  ∃ host port, p.addr = .domain host port ∧
    host.utf8ByteSize + p.payload.length + rest.length < 3

theorem length_wire (p : TrojanUdpPacket) :
    p.wire.length = p.addr.encode.length + 4 + p.payload.length := by
  simp [wire, encode, crlf]
  omega

theorem undersized_iff {p : TrojanUdpPacket} (h : p.Encodable) (rest : List UInt8) :
    p.Undersized rest ↔ (p.wire ++ rest).length < minSize := by
  obtain ⟨addr, payload⟩ := p
  simp only [Undersized, List.length_append, length_wire, minSize]
  cases addr with
  | ipv4 ip port => simp [Address.length_encode_ipv4]; omega
  | ipv6 ip port => simp [Address.length_encode_ipv6]; omega
  | domain host port =>
      have hsize : host.utf8ByteSize ≤ 255 := h.addr
      rw [Address.length_encode_domain hsize]
      constructor
      · rintro ⟨host', port', heq, hlt⟩
        cases heq
        omega
      · intro hlt
        exact ⟨host, port, rfl, by omega⟩

theorem decodeZerocopy_undersized {buf : List UInt8} (h : buf.length < minSize) :
    decodeZerocopy buf = (.needMoreData, buf) := by
  simp [decodeZerocopy, h]

theorem decodeZerocopy_of_fields {buf : List UInt8} {addr : Address} {addrLen payloadLen : Nat}
    (hmin : minSize ≤ buf.length) (haddr : Address.decode buf = .ok addr addrLen)
    (hlen : addrLen + 4 + payloadLen ≤ buf.length)
    (hpayload : (readU16 buf addrLen (by omega)).toNat = payloadLen)
    (hcrlf : (buf.drop (addrLen + 2)).take 2 = crlf) :
    decodeZerocopy buf =
      (.ok ⟨addr, (buf.drop (addrLen + 4)).take payloadLen⟩ (addrLen + 4 + payloadLen),
        (buf.drop (addrLen + 4)).drop payloadLen) := by
  have hcr : buf[addrLen + 2] = 13 ∧ buf[addrLen + 3] = 10 := by
    rw [take_two_drop (by omega)] at hcrlf
    simpa [crlf] using hcrlf
  simp [decodeZerocopy, Nat.not_lt.mpr hmin, haddr, hpayload, hcr,
    show ¬ buf.length < addrLen + 4 by omega, Nat.not_lt.mpr hlen]

theorem decodeZerocopy_wire_append {p : TrojanUdpPacket} (h : p.Encodable)
    (rest : List UInt8) (hmin : minSize ≤ (p.wire ++ rest).length) :
    decodeZerocopy (p.wire ++ rest) = (.ok p p.wire.length, rest) := by
  obtain ⟨addr, payload⟩ := p
  have hpayload : payload.length ≤ 65535 := h.payload
  have hbuf : wire ⟨addr, payload⟩ ++ rest = addr.encode ++
      (toBeBytes (UInt16.ofNat payload.length) ++ (crlf ++ (payload ++ rest))) := by
    simp [wire, encode]
  have haddr := Address.decode_encode_append h.addr
    (toBeBytes (UInt16.ofNat payload.length) ++ (crlf ++ (payload ++ rest)))
  have hlen : addr.encode.length + 4 + payload.length ≤
      (wire ⟨addr, payload⟩ ++ rest).length := by
    simp [length_wire]
  rw [hbuf] at hmin hlen
  have hcount : ∀ h, (readU16 (addr.encode ++
      (toBeBytes (UInt16.ofNat payload.length) ++ (crlf ++ (payload ++ rest))))
      addr.encode.length h).toNat = payload.length := by
    intro h
    rw [readU16_append _ _ _ rfl, UInt16.toNat_ofNat']
    omega
  have hdrop : ∀ n, (addr.encode ++ (toBeBytes (UInt16.ofNat payload.length) ++
      (crlf ++ (payload ++ rest)))).drop (addr.encode.length + n) =
      (toBeBytes (UInt16.ofNat payload.length) ++ (crlf ++ (payload ++ rest))).drop n := by
    intro n
    rw [← List.drop_drop, List.drop_left]
  rw [hbuf, decodeZerocopy_of_fields hmin haddr hlen (hcount _) (by rw [hdrop]; rfl),
    length_wire, hdrop]
  have hbody : (toBeBytes (UInt16.ofNat payload.length) ++ (crlf ++ (payload ++ rest))).drop 4 =
      payload ++ rest := rfl
  rw [hbody, List.take_left, List.drop_left]

/-- What the decoder can make of a buffer. -/
inductive ZerocopyCase (buf : List UInt8) : DecodeResult TrojanUdpPacket × List UInt8 → Prop
  | waiting : ZerocopyCase buf (.needMoreData, buf)
  | badAddress {message : String} (hmin : minSize ≤ buf.length)
      (haddr : Address.decode buf = .invalid message) : ZerocopyCase buf (.invalid message, buf)
  | badCrlf {addr : Address} {addrLen : Nat} (hmin : minSize ≤ buf.length)
      (haddr : Address.decode buf = .ok addr addrLen) (hlen : addrLen + 4 ≤ buf.length)
      (hcrlf : (buf.drop (addrLen + 2)).take 2 ≠ crlf) :
      ZerocopyCase buf (.invalid "missing CRLF in UDP packet", buf)
  | packet {addr : Address} {addrLen : Nat} (payloadLen : Nat) (hmin : minSize ≤ buf.length)
      (haddr : Address.decode buf = .ok addr addrLen)
      (hlen : addrLen + 4 + payloadLen ≤ buf.length)
      (hpayload : (readU16 buf addrLen (by omega)).toNat = payloadLen)
      (hcrlf : (buf.drop (addrLen + 2)).take 2 = crlf) :
      ZerocopyCase buf
        (.ok ⟨addr, (buf.drop (addrLen + 4)).take payloadLen⟩ (addrLen + 4 + payloadLen),
          (buf.drop (addrLen + 4)).drop payloadLen)

theorem decodeZerocopy_cases (buf : List UInt8) : ZerocopyCase buf (decodeZerocopy buf) := by
  unfold decodeZerocopy
  split
  · exact .waiting
  rename_i hmin
  split
  · exact .waiting
  · rename_i message haddr
    exact .badAddress (Nat.le_of_not_lt hmin) haddr
  · rename_i addr addrLen haddr
    split
    · exact .waiting
    rename_i hlen
    simp only
    split
    · rename_i hcrlf
      apply ZerocopyCase.badCrlf (Nat.le_of_not_lt hmin) haddr (Nat.le_of_not_lt hlen)
      rw [ne_eq, crlf_at_iff (by omega) (by omega), not_not]
      exact hcrlf
    · rename_i hcrlf
      split
      · exact .waiting
      · rename_i htotal
        apply ZerocopyCase.packet _ (Nat.le_of_not_lt hmin) haddr (Nat.le_of_not_lt htotal) rfl
        rw [crlf_at_iff (by omega) (by omega)]
        exact hcrlf

theorem shrinks_decodeZerocopy : Shrinks decodeZerocopy := by
  intro buf packet consumed rest h
  have hcase := decodeZerocopy_cases buf
  rw [h] at hcase
  cases hcase with
  | packet payloadLen hmin _ _ _ _ =>
      simp only [minSize] at hmin
      simp only [List.length_drop]
      omega

theorem decodeZerocopy_append_badCrlf {buf : List UInt8} {addr : Address} {addrLen : Nat}
    (hmin : minSize ≤ buf.length) (haddr : Address.decode buf = .ok addr addrLen)
    (hlen : addrLen + 4 ≤ buf.length) (hcrlf : (buf.drop (addrLen + 2)).take 2 ≠ crlf)
    (more : List UInt8) : decodeZerocopy (buf ++ more) =
      (.invalid "missing CRLF in UDP packet", buf ++ more) := by
  have hsize : buf.length ≤ (buf ++ more).length := by simp
  have hcrlf' : ((buf ++ more).drop (addrLen + 2)).take 2 ≠ crlf := by
    rw [List.drop_append_of_le_length (by omega), List.take_append_of_le_length (by simp; omega)]
    exact hcrlf
  rw [ne_eq, crlf_at_iff (by omega) (by omega), not_not] at hcrlf'
  unfold decodeZerocopy
  rw [if_neg (by omega), Address.decode_append_of_ok haddr]
  simp only
  rw [dif_neg (by omega), if_pos hcrlf']

theorem stable_decodeZerocopy : Stable decodeZerocopy where
  verdict := by
    intro buf rest result h hverdict more
    have hsize : buf.length ≤ (buf ++ more).length := by simp
    have hcase := decodeZerocopy_cases buf
    rw [h] at hcase
    cases hcase with
    | waiting => exact absurd rfl hverdict
    | badAddress hmin haddr =>
        unfold decodeZerocopy
        rw [if_neg (by omega), Address.decode_append_of_invalid haddr]
    | badCrlf hmin haddr hlen hcrlf =>
        exact decodeZerocopy_append_badCrlf hmin haddr hlen hcrlf more
    | packet payloadLen hmin haddr hlen hpayload hcrlf =>
        have hlen' := hlen.trans hsize
        rw [decodeZerocopy_of_fields (by omega) (Address.decode_append_of_ok haddr more) hlen']
        · rw [List.drop_append_of_le_length (by omega),
            List.take_append_of_le_length (by simp; omega),
            List.drop_append_of_le_length (by simp; omega)]
        · rw [readU16_append_left (by omega)]
          exact hpayload
        · rw [List.drop_append_of_le_length (by omega),
            List.take_append_of_le_length (by simp; omega)]
          exact hcrlf
  waiting := by
    intro buf rest h
    have hcase := decodeZerocopy_cases buf
    rw [h] at hcase
    cases hcase
    rfl

theorem eight_le_length_wire (p : TrojanUdpPacket) : 8 ≤ p.wire.length := by
  rw [length_wire]
  have haddr : 4 ≤ p.addr.encode.length := by
    cases p.addr <;> simp [Address.encode]
  omega

/-- The decode loop takes every packet but the last, which is always followed by
enough bytes, and then faces the last one alone. -/
theorem drain_wire_concat {packets : List TrojanUdpPacket} (last : TrojanUdpPacket)
    (hpackets : ∀ p ∈ packets, p.Encodable) :
    drain decodeZerocopy ((packets ++ [last]).flatMap wire) =
      ⟨packets ++ (drain decodeZerocopy last.wire).values,
        (drain decodeZerocopy last.wire).rest,
        (drain decodeZerocopy last.wire).error⟩ := by
  rw [List.flatMap_append, List.flatMap_singleton]
  apply drain_flatMap_append shrinks_decodeZerocopy wire packets last.wire
  rintro before p after rfl
  have hp := eight_le_length_wire p
  have hlast := eight_le_length_wire last
  apply decodeZerocopy_wire_append (hpackets p (by simp)) _
  simp only [List.length_append, minSize]
  omega

theorem drain_wire_eq_iff {last : TrojanUdpPacket} (h : last.Encodable) :
    drain decodeZerocopy last.wire = ⟨[last], [], none⟩ ↔ ¬ last.Undersized [] := by
  have hundersized := undersized_iff h []
  rw [List.append_nil] at hundersized
  by_cases hmin : last.wire.length < minSize
  · have hne : last.wire ≠ [] := by
      have := eight_le_length_wire last
      rintro hnil
      simp [hnil] at this
    rw [drain_needMoreData (decodeZerocopy_undersized hmin)]
    simp [hundersized, hmin]
  · have hdecode := decodeZerocopy_wire_append h [] (by simpa using hmin)
    rw [List.append_nil] at hdecode
    rw [drain_ok shrinks_decodeZerocopy hdecode]
    simp only [hundersized, hmin, not_false_eq_true, iff_true]
    rfl

/-- UDP framing round-trips and is self-delimiting except for undersized
packets: one packet in front of any bytes, and the decode loop over any list of
packets. -/
theorem udp_framing_iff (p : TrojanUdpPacket) (rest : List UInt8)
    (packets : List TrojanUdpPacket) (hp : p.Encodable) (hpackets : ∀ q ∈ packets, q.Encodable) :
    (decodeZerocopy (encode p.addr p.payload ++ rest) =
        (.ok p (encode p.addr p.payload).length, rest) ↔ ¬ p.Undersized rest) ∧
      (drain decodeZerocopy (packets.flatMap fun q => encode q.addr q.payload) =
          ⟨packets, [], none⟩ ↔
        ∀ last, packets.getLast? = some last → ¬ last.Undersized []) := by
  constructor
  · change decodeZerocopy (p.wire ++ rest) = (.ok p p.wire.length, rest) ↔ _
    rw [undersized_iff hp]
    by_cases hmin : (p.wire ++ rest).length < minSize
    · simpa [decodeZerocopy_undersized hmin] using hmin
    · simpa [decodeZerocopy_wire_append hp rest (Nat.le_of_not_lt hmin)] using hmin
  · change drain decodeZerocopy (packets.flatMap wire) = ⟨packets, [], none⟩ ↔ _
    rcases List.eq_nil_or_concat packets with rfl | ⟨init, last, rfl⟩
    · simp [drain, drainFuel]
    · rw [List.concat_eq_append] at hpackets ⊢
      have hlast := drain_wire_eq_iff (hpackets last (by simp))
      rw [drain_wire_concat last fun q hq => hpackets q (by simp [hq])]
      simp only [List.getLast?_append, List.getLast?_singleton, Option.some_or,
        Option.some.injEq, forall_eq', ← hlast]
      rcases drain decodeZerocopy last.wire with ⟨values, rest, error⟩
      simp

def tinyPacket : TrojanUdpPacket := ⟨.domain "a" 53, []⟩

/-- The decoder asks for more data although the packet is complete. -/
theorem tiny_packet_not_decoded :
    tinyPacket.Encodable ∧
      decodeZerocopy (encode tinyPacket.addr tinyPacket.payload ++ []) =
        (.needMoreData, [3, 1, 97, 0, 53, 0, 0, 13, 10]) ∧
      decodeZerocopy (encode tinyPacket.addr tinyPacket.payload ++ []) ≠
        (.ok tinyPacket (encode tinyPacket.addr tinyPacket.payload).length, []) := by
  have hwire : encode tinyPacket.addr tinyPacket.payload ++ [] =
      [3, 1, 97, 0, 53, 0, 0, 13, 10] := by decide
  have hdecode : decodeZerocopy [3, 1, 97, 0, 53, 0, 0, 13, 10] =
      (.needMoreData, [3, 1, 97, 0, 53, 0, 0, 13, 10]) := decodeZerocopy_undersized (by decide)
  refine ⟨⟨by decide, by decide⟩, ?_, ?_⟩
  · rw [hwire, hdecode]
  · rw [hwire, hdecode]
    simp

theorem udp_framing_dns :
    decodeZerocopy (encode (.domain "dns" 53) [1, 2] ++ [3]) =
        (.ok ⟨.domain "dns" 53, [1, 2]⟩ 13, [3]) ∧
      drain decodeZerocopy (encode (.domain "" 53) [] ++ (encode (.domain "dns" 53) [1, 2] ++ [])) =
        ⟨[⟨.domain "" 53, []⟩, ⟨.domain "dns" 53, [1, 2]⟩], [], none⟩ := by
  have hquery : Encodable ⟨.domain "dns" 53, [1, 2]⟩ := ⟨by decide, by decide⟩
  have hpackets : ∀ q ∈ [⟨.domain "" 53, []⟩, ⟨.domain "dns" 53, [1, 2]⟩], Encodable q := by
    simp only [List.mem_cons, List.not_mem_nil, or_false]
    rintro q (rfl | rfl)
    · exact ⟨by decide, by decide⟩
    · exact hquery
  obtain ⟨hpacket, hloop⟩ := udp_framing_iff ⟨.domain "dns" 53, [1, 2]⟩ [3] _ hquery hpackets
  constructor
  · apply hpacket.mpr
    rintro ⟨host, port, -, hlt⟩
    simp at hlt
    omega
  · apply hloop.mpr
    rintro last hlast ⟨host, port, heq, hlt⟩
    cases hlast
    cases heq
    exact absurd hlt (by decide)

end TrojanServer.Protocol.TrojanUdpPacket
