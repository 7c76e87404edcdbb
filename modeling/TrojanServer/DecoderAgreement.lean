import TrojanServer.RequestGrammar
import TrojanServer.RequestReader
import TrojanServer.UdpFraming

namespace TrojanServer.Protocol

open TrojanServer.FrameDecoding
open TrojanServer.RequestReader

/-- The byte that stands for a command, as the enumeration of the source has it. -/
def TrojanCmd.byte : TrojanCmd → UInt8
  | .connect => 1
  | .udpAssociate => 3

theorem TrojanCmd.tryFrom_eq_ok {value : UInt8} {cmd : TrojanCmd}
    (h : TrojanCmd.tryFrom value = .ok cmd) : value = cmd.byte := by
  unfold TrojanCmd.tryFrom at h
  split at h
  · cases h
    assumption
  · split at h
    · cases h
      assumption
    · cases h

theorem TrojanCmd.tryFrom_eq_error {value : UInt8} {message : String}
    (h : TrojanCmd.tryFrom value = .error message) : message = "invalid trojan command" := by
  unfold TrojanCmd.tryFrom at h
  split at h
  · cases h
  · split at h
    · cases h
    · cases h
      rfl

namespace TrojanRequest

/-- The probe and the decoder on one buffer. -/
inductive RequestCase (buf : List UInt8) :
    Except (Option String) Nat → DecodeResult TrojanRequest × List UInt8 → Prop
  | waiting : RequestCase buf (.error none) (.needMoreData, buf)
  | invalid (message : String) : RequestCase buf (.error (some message)) (.invalid message, buf)
  | complete {request : TrojanRequest} {n : Nat} (hn : n ≤ buf.length)
      (hheader : buf.take n = header request.password request.cmd.byte request.addr)
      (hpayload : request.payload = buf.drop n) :
      RequestCase buf (.ok n) (.ok request n, [])

theorem request_cases (buf : List UInt8) :
    RequestCase buf (checkComplete buf) (decodeZerocopy buf) := by
  unfold checkComplete decodeZerocopy
  split
  · exact .waiting
  rename_i hmin
  have hsize : 68 ≤ buf.length := Nat.le_of_not_lt hmin
  simp only
  split
  · exact .invalid _
  rename_i hcrlf
  split
  · rename_i message hcmd
    rw [TrojanCmd.tryFrom_eq_error hcmd]
    exact .invalid _
  rename_i cmd hcmd
  split
  · exact .waiting
  · exact .invalid _
  rename_i addr addrLen hdecode
  split
  · exact .waiting
  rename_i hend
  split
  · exact .invalid _
  rename_i hcrlf'
  obtain ⟨-, rfl, htake⟩ := Address.decode_eq_ok_iff.mp hdecode
  refine .complete (Nat.le_of_not_lt hend) ?_ rfl
  change buf.take _ = header _ _ addr
  rw [take_eq_header_iff (Nat.le_of_not_lt hend)]
  refine ⟨rfl, rfl, (crlf_at_iff (by omega) (by omega)).mpr hcrlf, ?_, htake.symm,
    (crlf_at_iff (by omega) (by omega)).mpr hcrlf'⟩
  rw [take_one_drop (by omega), TrojanCmd.tryFrom_eq_ok hcmd]

theorem request_verdicts (buf : List UInt8) :
    (checkComplete buf = .error none ∧ decodeZerocopy buf = (.needMoreData, buf)) ∨
      (∃ message, checkComplete buf = .error (some message) ∧
        decodeZerocopy buf = (.invalid message, buf)) ∨
      ∃ request n, checkComplete buf = .ok n ∧ decodeZerocopy buf = (.ok request n, []) ∧
        buf.take n = header request.password request.cmd.byte request.addr ∧
        request.payload = buf.drop n := by
  have hcase := request_cases buf
  revert hcase
  generalize checkComplete buf = probed
  generalize decodeZerocopy buf = decoded
  intro hcase
  cases hcase with
  | waiting => exact .inl ⟨rfl, rfl⟩
  | invalid message => exact .inr (.inl ⟨message, rfl, rfl⟩)
  | complete _ hheader hpayload => exact .inr (.inr ⟨_, _, rfl, rfl, hheader, hpayload⟩)

theorem probe_ne_aborted (buf : List UInt8) : (Reader.probe buf).outcome ≠ some .aborted := by
  unfold Reader.probe
  split
  · rcases request_verdicts buf with ⟨hprobe, -⟩ | ⟨message, hprobe, -⟩ |
      ⟨request, n, hprobe, hdecode, -⟩
    · simp [hprobe]
    · simp [hprobe]
    · simp [hprobe, hdecode]
  · simp

end TrojanRequest

namespace TrojanUdpPacket

theorem decode_eq_decodeZerocopy (buf : List UInt8) : decode buf = (decodeZerocopy buf).1 := by
  unfold decode decodeZerocopy
  split
  · rfl
  split
  · rfl
  · rfl
  split
  · rfl
  simp only
  split
  · rfl
  split
  · rfl
  · rw [List.drop_take, Nat.add_sub_cancel_left]

theorem decodeZerocopy_untouched {buf : List UInt8}
    (h : ∀ packet n, (decodeZerocopy buf).1 ≠ .ok packet n) : (decodeZerocopy buf).2 = buf := by
  have hcase := decodeZerocopy_cases buf
  revert hcase h
  generalize decodeZerocopy buf = decoded
  intro h hcase
  cases hcase with
  | waiting => rfl
  | badAddress _ _ => rfl
  | badCrlf _ _ _ _ => rfl
  | packet _ _ _ _ _ _ => exact absurd rfl (h _ _)

theorem decodeZerocopy_rest {buf : List UInt8} {packet : TrojanUdpPacket} {n : Nat}
    (h : (decodeZerocopy buf).1 = .ok packet n) :
    n ≤ buf.length ∧ (decodeZerocopy buf).2 = buf.drop n := by
  have hcase := decodeZerocopy_cases buf
  cases hresult : decodeZerocopy buf with
  | mk result rest =>
      rw [hresult] at hcase h
      subst h
      cases hcase with
      | packet payloadLen hmin haddr hlen hpayload hcrlf =>
          exact ⟨hlen, List.drop_drop⟩

end TrojanUdpPacket

/-- The probe, the consuming decoder of requests and the two decoders of UDP packets
on any buffer: same verdicts, same lengths, same values, and a buffer that is only
touched by success. -/
theorem decoders_agree (buf : List UInt8) :
    (∀ n, TrojanRequest.checkComplete buf = .ok n ↔
        ∃ request, (TrojanRequest.decodeZerocopy buf).1 = .ok request n) ∧
      (TrojanRequest.checkComplete buf = .error none ↔
        (TrojanRequest.decodeZerocopy buf).1 = .needMoreData) ∧
      (∀ message, TrojanRequest.checkComplete buf = .error (some message) ↔
        (TrojanRequest.decodeZerocopy buf).1 = .invalid message) ∧
      (Reader.probe buf).outcome ≠ some .aborted ∧
      (∀ request n, (TrojanRequest.decodeZerocopy buf).1 = .ok request n →
        TrojanRequest.header request.password request.cmd.byte request.addr = buf.take n ∧
          buf.take n ++ request.payload = buf) ∧
      TrojanUdpPacket.decode buf = (TrojanUdpPacket.decodeZerocopy buf).1 ∧
      ((∀ request n, (TrojanRequest.decodeZerocopy buf).1 ≠ .ok request n) →
        (TrojanRequest.decodeZerocopy buf).2 = buf) ∧
      ((∀ packet n, (TrojanUdpPacket.decodeZerocopy buf).1 ≠ .ok packet n) →
        (TrojanUdpPacket.decodeZerocopy buf).2 = buf) ∧
      (∀ packet n, (TrojanUdpPacket.decodeZerocopy buf).1 = .ok packet n →
        n ≤ buf.length ∧ (TrojanUdpPacket.decodeZerocopy buf).2 = buf.drop n) := by
  refine ⟨?_, ?_, ?_, TrojanRequest.probe_ne_aborted buf, ?_,
    TrojanUdpPacket.decode_eq_decodeZerocopy buf, ?_, TrojanUdpPacket.decodeZerocopy_untouched,
    fun _ _ h => TrojanUdpPacket.decodeZerocopy_rest h⟩
  all_goals
    rcases TrojanRequest.request_verdicts buf with ⟨hprobe, hdecode⟩ |
      ⟨message, hprobe, hdecode⟩ | ⟨request, n, hprobe, hdecode, hheader, hpayload⟩
    · simp [hprobe, hdecode]
    · simp [hprobe, hdecode]
    · simp [hprobe, hdecode, ← hheader, hpayload]

end TrojanServer.Protocol
