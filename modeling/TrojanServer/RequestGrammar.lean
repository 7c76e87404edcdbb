import TrojanServer.AddressCodec

namespace TrojanServer.Protocol.TrojanRequest

open TrojanServer.FrameDecoding

def header (password : Octets 56) (cmd : UInt8) (addr : Address) : List UInt8 :=
  password.toList ++ crlf ++ [cmd] ++ addr.encode ++ crlf

def IsCmd (cmd : UInt8) : Prop := cmd = 1 ∨ cmd = 3

/-- The first `n` bytes of the buffer are a request header. -/
def IsRequest (buf : List UInt8) (n : Nat) : Prop :=
  n ≤ buf.length ∧ ∃ password cmd addr, IsCmd cmd ∧ addr.Encodable ∧
    buf.take n = header password cmd addr

/-- The buffer is below the minimum size, and its first `n` bytes are a request
header whose target is a domain of at most two bytes. -/
def IsShortRequest (buf : List UInt8) (n : Nat) : Prop :=
  buf.length < minSize ∧ n ≤ buf.length ∧ ∃ password cmd host port,
    IsCmd cmd ∧ host.utf8ByteSize ≤ 2 ∧
      buf.take n = header password cmd (.domain host port)

theorem length_header (password : Octets 56) (cmd : UInt8) (addr : Address) :
    (header password cmd addr).length = 59 + addr.encode.length + 2 := by
  simp [header, crlf]
  omega

theorem tryFrom_isOk_iff {value : UInt8} :
    (∃ cmd, TrojanCmd.tryFrom value = .ok cmd) ↔ IsCmd value := by
  unfold TrojanCmd.tryFrom IsCmd
  split
  · rename_i h
    simp [h]
  · rename_i h
    split <;> simp_all

theorem take_header (buf : List UInt8) (addrLen : Nat) :
    buf.take (59 + addrLen + 2) =
      buf.take 56 ++ (buf.drop 56).take 2 ++ (buf.drop 58).take 1 ++
        (buf.drop 59).take addrLen ++ (buf.drop (59 + addrLen)).take 2 := by
  rw [List.take_add, List.take_add, show 59 = 58 + 1 from rfl, List.take_add,
    show 58 = 56 + 2 from rfl, List.take_add]

theorem take_eq_header_iff {buf : List UInt8} {n : Nat} (h : n ≤ buf.length)
    {password : Octets 56} {cmd : UInt8} {addr : Address} :
    buf.take n = header password cmd addr ↔
      n = 59 + addr.encode.length + 2 ∧ buf.take 56 = password.toList ∧
        (buf.drop 56).take 2 = crlf ∧ (buf.drop 58).take 1 = [cmd] ∧
        (buf.drop 59).take addr.encode.length = addr.encode ∧
        (buf.drop (59 + addr.encode.length)).take 2 = crlf := by
  constructor
  · intro htake
    obtain rfl : n = 59 + addr.encode.length + 2 := by
      have hlen := congrArg List.length htake
      rw [length_header] at hlen
      simpa [h] using hlen
    rw [take_header, header] at htake
    have hsize : 59 + addr.encode.length + 2 ≤ buf.length := h
    obtain ⟨htake, hcrlf⟩ := List.append_inj' htake (by simp [crlf]; omega)
    obtain ⟨htake, haddr⟩ := List.append_inj' htake (by simp; omega)
    obtain ⟨htake, hcmd⟩ := List.append_inj' htake (by simp; omega)
    obtain ⟨hpassword, hcrlf'⟩ := List.append_inj' htake (by simp [crlf]; omega)
    exact ⟨rfl, hpassword, hcrlf', hcmd, haddr, hcrlf⟩
  · rintro ⟨rfl, hpassword, hcrlf', hcmd, haddr, hcrlf⟩
    rw [take_header, hpassword, hcrlf', hcmd, haddr, hcrlf, header]

theorem isRequest_append {buf : List UInt8} {n : Nat} (h : IsRequest buf n) (more : List UInt8) :
    IsRequest (buf ++ more) n := by
  obtain ⟨hn, password, cmd, addr, hcmd, haddr, htake⟩ := h
  refine ⟨?_, password, cmd, addr, hcmd, haddr, ?_⟩
  · rw [List.length_append]
    omega
  · rw [List.take_append_of_le_length hn, htake]

theorem take_one_drop {buf : List UInt8} {i : Nat} (h : i < buf.length) :
    (buf.drop i).take 1 = [buf[i]] := by
  rw [List.drop_eq_getElem_cons h]
  rfl

theorem isRequest_of_checkComplete {buf : List UInt8} {n : Nat}
    (h : checkComplete buf = .ok n) : minSize ≤ buf.length ∧ IsRequest buf n := by
  unfold checkComplete at h
  split at h
  · cases h
  rename_i hmin
  have hsize : 68 ≤ buf.length := Nat.le_of_not_lt hmin
  simp only at h
  split at h
  · cases h
  rename_i hcrlf
  split at h
  · cases h
  rename_i cmd hcmd
  split at h
  · cases h
  · cases h
  rename_i addr addrLen hdecode
  obtain ⟨haddr, hlen, htake⟩ := Address.decode_eq_ok_iff.mp hdecode
  subst hlen
  split at h
  · cases h
  rename_i hend
  split at h
  · cases h
  rename_i hcrlf'
  cases h
  refine ⟨hsize, Nat.le_of_not_lt hend, slice buf 0 56 (by omega), buf[58], addr,
    tryFrom_isOk_iff.mp ⟨cmd, hcmd⟩, haddr, ?_⟩
  rw [take_eq_header_iff (Nat.le_of_not_lt hend)]
  exact ⟨rfl, rfl, (crlf_at_iff (by omega) (by omega)).mpr hcrlf, take_one_drop (by omega),
    htake.symm, (crlf_at_iff (by omega) (by omega)).mpr hcrlf'⟩

theorem checkComplete_of_isRequest {buf : List UInt8} {n : Nat}
    (hmin : minSize ≤ buf.length) (h : IsRequest buf n) : checkComplete buf = .ok n := by
  obtain ⟨hn, password, cmd, addr, hcmd, haddr, htake⟩ := h
  obtain ⟨rfl, -, hcrlf, hcmdAt, haddrAt, hcrlf'⟩ := (take_eq_header_iff hn).mp htake
  have hsize : 68 ≤ buf.length := hmin
  rw [take_one_drop (by omega), List.singleton_inj] at hcmdAt
  obtain ⟨cmd', htryFrom⟩ := tryFrom_isOk_iff.mpr (hcmdAt ▸ hcmd)
  have hdecode : Address.decode (buf.drop 59) = .ok addr addr.encode.length :=
    Address.decode_eq_ok_iff.mpr ⟨haddr, rfl, haddrAt.symm⟩
  rw [crlf_at_iff (by omega) (by omega)] at hcrlf
  rw [crlf_at_iff (by omega) hn] at hcrlf'
  unfold checkComplete
  rw [dif_neg (Nat.not_lt.mpr hmin)]
  simp only
  rw [if_neg hcrlf, htryFrom]
  simp only [hdecode]
  rw [dif_neg (Nat.not_lt.mpr hn), if_neg hcrlf']

theorem checkComplete_eq_ok_iff {buf : List UInt8} {n : Nat} :
    checkComplete buf = .ok n ↔ minSize ≤ buf.length ∧ IsRequest buf n :=
  ⟨isRequest_of_checkComplete, fun h => checkComplete_of_isRequest h.1 h.2⟩

theorem isShortRequest_iff {buf : List UInt8} {n : Nat} :
    IsShortRequest buf n ↔ buf.length < minSize ∧ IsRequest buf n := by
  constructor
  · rintro ⟨hlt, hn, password, cmd, host, port, hcmd, hhost, htake⟩
    exact ⟨hlt, hn, password, cmd, .domain host port, hcmd, Nat.le_trans hhost (by decide), htake⟩
  · rintro ⟨hlt, hn, password, cmd, addr, hcmd, haddr, htake⟩
    have hlen := ((take_eq_header_iff hn).mp htake).1
    simp only [minSize] at hlt
    cases addr with
    | ipv4 ip port =>
        rw [Address.length_encode_ipv4] at hlen
        omega
    | ipv6 ip port =>
        rw [Address.length_encode_ipv6] at hlen
        omega
    | domain host port =>
        rw [Address.length_encode_domain haddr] at hlen
        exact ⟨hlt, hn, password, cmd, host, port, hcmd, by omega, htake⟩

/-- The parser agrees with the grammar on a buffer and a length unless they are
a short request. -/
theorem check_complete_grammar_iff (buf : List UInt8) (n : Nat) :
    (checkComplete buf = .ok n ↔ IsRequest buf n) ↔ ¬ IsShortRequest buf n := by
  rw [checkComplete_eq_ok_iff, isShortRequest_iff]
  constructor
  · rintro h ⟨hlt, hrequest⟩
    exact absurd (h.mpr hrequest).1 (Nat.not_le.mpr hlt)
  · intro h
    refine ⟨fun hboth => hboth.2, fun hrequest => ⟨?_, hrequest⟩⟩
    exact Nat.le_of_not_lt fun hlt => h ⟨hlt, hrequest⟩

def tinyRequest : List UInt8 :=
  header (List.Vector.replicate 56 97) 1 (.domain "a" 80)

/-- The complete request is answered with a wait for more data. -/
theorem tiny_request_not_recognised :
    tinyRequest.length = 66 ∧ checkComplete tinyRequest = .error none ∧
      ¬ (checkComplete tinyRequest = .ok 66 ↔ IsRequest tinyRequest 66) := by
  have hlen : tinyRequest.length = 66 := by
    rw [tinyRequest, length_header, Address.length_encode_domain (by decide)]
    decide
  have hcheck : checkComplete tinyRequest = .error none := by
    unfold checkComplete
    rw [dif_pos (by rw [hlen]; decide)]
  have hrequest : IsRequest tinyRequest 66 :=
    ⟨by omega, List.Vector.replicate 56 97, 1, .domain "a" 80, .inl rfl, by decide,
      List.take_of_length_le (by omega)⟩
  refine ⟨hlen, hcheck, ?_⟩
  simp [hcheck, hrequest]

end TrojanServer.Protocol.TrojanRequest
