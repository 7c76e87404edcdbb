import TrojanServer.DecoderAgreement

namespace TrojanServer.Protocol

open TrojanServer.FrameDecoding
open TrojanServer.RequestReader

namespace Address

theorem length_encode_le {a : Address} (h : a.Encodable) : a.encode.length ≤ 259 := by
  cases a with
  | ipv4 ip port =>
      rw [length_encode_ipv4]
      decide
  | ipv6 ip port =>
      rw [length_encode_ipv6]
      decide
  | domain host port =>
      have hsize : host.utf8ByteSize ≤ 255 := h
      rw [length_encode_domain hsize]
      omega

theorem length_lt_of_needMoreData {buf : List UInt8} (h : decode buf = .needMoreData) :
    buf.length < 259 := by
  unfold decode at h
  split at h
  · omega
  simp only at h
  split at h
  · split at h
    · omega
    · cases h
  split at h
  · split at h
    · omega
    · cases h
  split at h
  · split at h
    · omega
    split at h
    · have hbyte := buf[1].toNat_lt
      omega
    · split at h <;> cases h
  · cases h

theorem encode_injective {a b : Address} (ha : a.Encodable) (hb : b.Encodable)
    (h : a.encode = b.encode) : a = b := by
  have hdecode := decode_encode_append ha []
  rw [h, decode_encode_append hb []] at hdecode
  cases hdecode
  rfl

end Address

theorem TrojanCmd.byte_injective {cmd cmd' : TrojanCmd} (h : cmd.byte = cmd'.byte) :
    cmd = cmd' := by
  cases cmd <;> cases cmd' <;> first | rfl | cases h

namespace TrojanRequest

theorem length_header_le {addr : Address} (h : addr.Encodable) (password : Octets 56)
    (cmd : UInt8) : (header password cmd addr).length ≤ 320 := by
  have hlen := Address.length_encode_le h
  rw [length_header]
  omega

theorem header_injective {password password' : Octets 56} {cmd cmd' : UInt8} {addr addr' : Address}
    (haddr : addr.Encodable) (haddr' : addr'.Encodable)
    (h : header password cmd addr = header password' cmd' addr') :
    password = password' ∧ cmd = cmd' ∧ addr = addr' := by
  obtain ⟨hlen, hpassword, -, hcmd, hencode, -⟩ :=
    (take_eq_header_iff (Nat.le_refl _)).mp (List.take_length (l := header password cmd addr))
  obtain ⟨hlen', hpassword', -, hcmd', hencode', -⟩ :=
    (take_eq_header_iff (Nat.le_refl _)).mp ((List.take_length).trans h)
  have hsame : addr'.encode.length = addr.encode.length := by omega
  refine ⟨Subtype.ext (hpassword.symm.trans hpassword'), ?_, ?_⟩
  · rw [hcmd] at hcmd'
    exact List.singleton_inj.mp hcmd'
  · rw [hsame, hencode] at hencode'
    exact Address.encode_injective haddr haddr' hencode'

section Stability

variable {buf : List UInt8}

theorem checkComplete_append_of_ok {n : Nat} (h : checkComplete buf = .ok n)
    (more : List UInt8) : checkComplete (buf ++ more) = .ok n := by
  obtain ⟨hmin, hrequest⟩ := checkComplete_eq_ok_iff.mp h
  refine checkComplete_eq_ok_iff.mpr ⟨?_, isRequest_append hrequest more⟩
  rw [List.length_append]
  omega

theorem checkComplete_append_of_invalid {message : String}
    (h : checkComplete buf = .error (some message)) (more : List UInt8) :
    checkComplete (buf ++ more) = .error (some message) := by
  unfold checkComplete at h
  split at h
  · cases h
  rename_i hmin
  have hsize : 68 ≤ buf.length := Nat.le_of_not_lt hmin
  have hlong : ¬ (buf ++ more).length < minSize := by
    rw [List.length_append]
    omega
  simp only at h
  unfold checkComplete
  rw [dif_neg hlong]
  simp only [List.getElem_append_left (show 56 < buf.length by omega),
    List.getElem_append_left (show 57 < buf.length by omega),
    List.getElem_append_left (show 58 < buf.length by omega)]
  split at h
  · rename_i hcrlf
    rw [if_pos hcrlf]
    exact h
  rename_i hcrlf
  rw [if_neg hcrlf]
  split at h
  · rename_i hcmd
    simp only [hcmd]
    exact h
  rename_i cmd hcmd
  simp only [hcmd]
  rw [List.drop_append_of_le_length (by omega)]
  split at h
  · cases h
  · rename_i hdecode
    simp only [Address.decode_append_of_invalid hdecode more]
    exact h
  · rename_i addr addrLen hdecode
    simp only [Address.decode_append_of_ok hdecode more]
    split at h
    · cases h
    rename_i hend
    have hend' : ¬ (buf ++ more).length < 59 + addrLen + 2 := by
      rw [List.length_append]
      omega
    rw [dif_neg hend']
    simp only [List.getElem_append_left (show 59 + addrLen < buf.length by omega),
      List.getElem_append_left (show 59 + addrLen + 1 < buf.length by omega)]
    split at h
    · rename_i hcrlf'
      rw [if_pos hcrlf']
      exact h
    · cases h

theorem encodable_of_decodeZerocopy {request : TrojanRequest} {n : Nat} {rest : List UInt8}
    (h : decodeZerocopy buf = (.ok request n, rest)) : request.addr.Encodable := by
  unfold decodeZerocopy at h
  split at h
  · cases h
  simp only at h
  split at h
  · cases h
  split at h
  · cases h
  split at h
  · cases h
  · cases h
  · rename_i addr addrLen hdecode
    split at h
    · cases h
    split at h
    · cases h
    · cases h
      exact (Address.decode_eq_ok_iff.mp hdecode).1

/-- A buffer that is not judged yet is shorter than the largest header. -/
theorem length_lt_of_waiting (h : checkComplete buf = .error none) : buf.length < 320 := by
  unfold checkComplete at h
  split at h
  · rename_i hmin
    simp only [minSize] at hmin
    omega
  simp only at h
  split at h
  · cases h
  split at h
  · cases h
  split at h
  · rename_i hdecode
    have hlen := Address.length_lt_of_needMoreData hdecode
    rw [List.length_drop] at hlen
    omega
  · cases h
  · rename_i addr addrLen hdecode
    obtain ⟨haddr, rfl, -⟩ := Address.decode_eq_ok_iff.mp hdecode
    have hlen := Address.length_encode_le haddr
    split at h
    · omega
    · split at h <;> cases h

end Stability

end TrojanRequest

end TrojanServer.Protocol
