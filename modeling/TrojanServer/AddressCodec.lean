import TrojanServer.Protocol

namespace TrojanServer.Protocol.Address

open TrojanServer.FrameDecoding

/-- The address fits the format: the length of a domain is one byte. -/
def Encodable : Address → Prop
  | .domain host _ => host.utf8ByteSize ≤ 255
  | _ => True

instance : DecidablePred Encodable
  | .ipv4 _ _ => .isTrue trivial
  | .ipv6 _ _ => .isTrue trivial
  | .domain host _ => inferInstanceAs (Decidable (host.utf8ByteSize ≤ 255))

theorem encode_domain {host : String} (h : host.utf8ByteSize ≤ 255) (port : UInt16) :
    encode (.domain host port) =
      atypDomain :: UInt8.ofNat host.utf8ByteSize :: (asBytes host ++ toBeBytes port) := by
  simp [encode, Nat.min_eq_left h, List.take_of_length_le (Nat.le_of_eq (length_asBytes host))]

theorem length_encode_ipv4 (ip : Octets 4) (port : UInt16) :
    (encode (.ipv4 ip port)).length = 7 := by
  simp [encode]

theorem length_encode_ipv6 (ip : Octets 16) (port : UInt16) :
    (encode (.ipv6 ip port)).length = 19 := by
  simp [encode]

theorem length_encode_domain {host : String} (h : host.utf8ByteSize ≤ 255)
    (port : UInt16) : (encode (.domain host port)).length = host.utf8ByteSize + 4 := by
  simp [encode_domain h, length_asBytes]

theorem decode_ipv4 {buf : List UInt8} (h : 7 ≤ buf.length) (hatyp : buf[0] = atypIpv4) :
    decode buf = .ok (.ipv4 (slice buf 1 4 (by omega)) (readU16 buf 5 (by omega))) 7 := by
  simp [decode, hatyp, Nat.not_lt.mpr h, show buf ≠ [] by rintro rfl; simp at h]

theorem decode_ipv6 {buf : List UInt8} (h : 19 ≤ buf.length) (hatyp : buf[0] = atypIpv6) :
    decode buf = .ok (.ipv6 (slice buf 1 16 (by omega)) (readU16 buf 17 (by omega))) 19 := by
  simp [decode, hatyp, Nat.not_lt.mpr h, show buf ≠ [] by rintro rfl; simp at h, atypIpv4,
    atypIpv6]

theorem decode_domain {buf : List UInt8} {domainLen : Nat} {host : String}
    (htwo : 2 ≤ buf.length) (hatyp : buf[0] = atypDomain) (hlen : buf[1].toNat = domainLen)
    (h : 1 + 1 + domainLen + 2 ≤ buf.length)
    (hhost : fromUtf8 ((buf.drop 2).take domainLen) = some host) :
    decode buf =
      .ok (.domain host (readU16 buf (2 + domainLen) (by omega))) (1 + 1 + domainLen + 2) := by
  subst hlen
  simp [decode, hatyp, Nat.not_lt.mpr h, show buf ≠ [] by rintro rfl; simp at h, atypIpv4,
    atypIpv6, atypDomain, Nat.not_lt.mpr htwo, hhost]

theorem ip_fields_append (atyp : UInt8) {n : Nat} (ip : Octets n) (port : UInt16)
    (rest : List UInt8) (hip : 1 + n ≤ (atyp :: (ip.toList ++ toBeBytes port) ++ rest).length)
    {i : Nat} (hi : 1 + n = i)
    (hport : i + 2 ≤ (atyp :: (ip.toList ++ toBeBytes port) ++ rest).length) :
    slice (atyp :: (ip.toList ++ toBeBytes port) ++ rest) 1 n hip = ip ∧
      readU16 (atyp :: (ip.toList ++ toBeBytes port) ++ rest) i hport = port := by
  have hbuf : atyp :: (ip.toList ++ toBeBytes port) ++ rest =
      [atyp] ++ (ip.toList ++ (toBeBytes port ++ rest)) := by simp
  have hbuf' : atyp :: (ip.toList ++ toBeBytes port) ++ rest =
      ([atyp] ++ ip.toList) ++ (toBeBytes port ++ rest) := by simp
  constructor
  · simp only [hbuf]
    exact slice_append _ ip _ rfl _
  · simp only [hbuf']
    exact readU16_append _ port rest (by simp; omega) _

/-- An encoded address is recognised whatever follows it. -/
theorem decode_encode_append {a : Address} (ha : a.Encodable) (rest : List UInt8) :
    decode (a.encode ++ rest) = .ok a a.encode.length := by
  cases a with
  | ipv4 ip port =>
      have hlen : 7 ≤ (encode (.ipv4 ip port) ++ rest).length := by
        simp [length_encode_ipv4]
      obtain ⟨hip, hport⟩ := ip_fields_append atypIpv4 ip port rest (by simp) (i := 5)
        rfl (by simp; omega)
      rw [length_encode_ipv4, decode_ipv4 hlen rfl]
      simp only [encode, hip, hport]
  | ipv6 ip port =>
      have hlen : 19 ≤ (encode (.ipv6 ip port) ++ rest).length := by
        simp [length_encode_ipv6]
      obtain ⟨hip, hport⟩ := ip_fields_append atypIpv6 ip port rest (by simp) (i := 17)
        rfl (by simp; omega)
      rw [length_encode_ipv6, decode_ipv6 hlen rfl]
      simp only [encode, hip, hport]
  | domain host port =>
      have hsize : host.utf8ByteSize ≤ 255 := ha
      have hbuf : encode (.domain host port) ++ rest =
          ([atypDomain, UInt8.ofNat host.utf8ByteSize] ++ asBytes host) ++
            (toBeBytes port ++ rest) := by simp [encode_domain hsize]
      have hlen : 1 + 1 + host.utf8ByteSize + 2 ≤
          (encode (.domain host port) ++ rest).length := by
        simp [length_encode_domain hsize]
        omega
      have hbyte : (UInt8.ofNat host.utf8ByteSize).toNat = host.utf8ByteSize := by
        rw [UInt8.toNat_ofNat']
        omega
      have htext : fromUtf8 (((encode (.domain host port) ++ rest).drop 2).take
          host.utf8ByteSize) = some host := by
        rw [fromUtf8_eq_some_iff, hbuf, ← length_asBytes]
        simp
      have hport : ∀ h, readU16 (encode (.domain host port) ++ rest)
          (2 + host.utf8ByteSize) h = port := by
        simp only [hbuf]
        exact readU16_append _ port rest (by simp [length_asBytes]; omega)
      rw [length_encode_domain hsize, decode_domain (by omega) (by simp [encode])
        (by simp [encode_domain hsize, hbyte]) hlen htext, hport,
        show 1 + 1 + host.utf8ByteSize + 2 = host.utf8ByteSize + 4 by omega]

theorem take_eq_ip_fields {buf : List UInt8} {n i : Nat} (hi : 1 + n = i)
    (h : i + 2 ≤ buf.length) :
    buf.take (i + 2) =
      buf[0] :: ((slice buf 1 n (by omega)).toList ++ toBeBytes (readU16 buf i h)) := by
  rw [← (readU16_eq_iff h _).mp rfl]
  obtain ⟨b, buf, rfl⟩ := List.exists_cons_of_length_pos (show 0 < buf.length by omega)
  obtain rfl : i = n + 1 := by omega
  change b :: buf.take (n + 2) = b :: (buf.take n ++ (buf.drop n).take 2)
  rw [List.take_add]

theorem take_eq_domain_fields {buf : List UInt8} {host : String} {domainLen : Nat}
    (htwo : 2 ≤ buf.length) (hlen : buf[1].toNat = domainLen)
    (h : 2 + domainLen + 2 ≤ buf.length)
    (hhost : fromUtf8 ((buf.drop 2).take domainLen) = some host) :
    host.utf8ByteSize ≤ 255 ∧
      buf.take (2 + domainLen + 2) =
        buf[0] :: UInt8.ofNat host.utf8ByteSize ::
          (asBytes host ++ toBeBytes (readU16 buf (2 + domainLen) h)) := by
  rw [← (readU16_eq_iff h _).mp rfl, ← fromUtf8_eq_some_iff.mp hhost, ← length_asBytes,
    ← fromUtf8_eq_some_iff.mp hhost]
  match buf, htwo, hlen, h with
  | b₀ :: b₁ :: buf, _, hlen, h =>
      change b₁.toNat = domainLen at hlen
      have hle : domainLen ≤ buf.length := by
        simp only [List.length_cons] at h
        omega
      have hbyte := b₁.toNat_lt
      have hsize : ((buf.take domainLen).length) = domainLen := by simpa using hle
      change (buf.take domainLen).length ≤ 255 ∧ _
      refine ⟨by omega, ?_⟩
      have hb₁ : UInt8.ofNat domainLen = b₁ := by
        rw [← hlen]
        exact UInt8.ofNat_toNat
      rw [show 2 + domainLen + 2 = domainLen + 2 + 1 + 1 by omega,
        show 2 + domainLen = domainLen + 1 + 1 by omega]
      simp only [List.take_succ_cons, List.drop_succ_cons, List.drop_zero, hsize, hb₁,
        List.getElem_cons_zero]
      rw [List.take_add]

theorem encode_eq_take_of_decode {buf : List UInt8} {a : Address} {n : Nat}
    (h : decode buf = .ok a n) : a.Encodable ∧ n ≤ buf.length ∧ a.encode = buf.take n := by
  simp only [decode] at h
  split at h
  · cases h
  split at h
  · rename_i hatyp
    split at h
    · cases h
    · rename_i hlen
      cases h
      refine ⟨trivial, by omega, ?_⟩
      rw [take_eq_ip_fields (i := 5) (n := 4) rfl (by omega), hatyp]
      rfl
  split at h
  · rename_i hatyp
    split at h
    · cases h
    · rename_i hlen
      cases h
      refine ⟨trivial, by omega, ?_⟩
      rw [take_eq_ip_fields (i := 17) (n := 16) rfl (by omega), hatyp]
      rfl
  split at h
  · rename_i hatyp
    split at h
    · cases h
    split at h
    · cases h
    · rename_i htwo hlen
      split at h
      · cases h
      · rename_i host hhost
        cases h
        obtain ⟨hsize, htake⟩ := take_eq_domain_fields (by omega) rfl (by omega) hhost
        refine ⟨hsize, by omega, ?_⟩
        rw [encode_domain hsize, htake, hatyp]
  · cases h

/-- A buffer decodes to an address exactly when it starts with its encoding. -/
theorem decode_eq_ok_iff {buf : List UInt8} {a : Address} {n : Nat} :
    decode buf = .ok a n ↔ a.Encodable ∧ n = a.encode.length ∧ a.encode = buf.take n := by
  constructor
  · intro h
    obtain ⟨hencodable, hle, htake⟩ := encode_eq_take_of_decode h
    exact ⟨hencodable, by simp [htake, hle], htake⟩
  · rintro ⟨hencodable, hn, htake⟩
    have hdecode := decode_encode_append hencodable (buf.drop n)
    rwa [htake, List.take_append_drop, ← htake, ← hn] at hdecode

theorem decode_append_of_ok {buf : List UInt8} {a : Address} {n : Nat}
    (h : decode buf = .ok a n) (more : List UInt8) : decode (buf ++ more) = .ok a n := by
  obtain ⟨hencodable, hn, htake⟩ := decode_eq_ok_iff.mp h
  have hle := (encode_eq_take_of_decode h).2.1
  apply decode_eq_ok_iff.mpr
  rw [List.take_append_of_le_length hle]
  exact ⟨hencodable, hn, htake⟩

theorem decode_append_of_invalid {buf : List UInt8} {message : String}
    (h : decode buf = .invalid message) (more : List UInt8) :
    decode (buf ++ more) = .invalid message := by
  obtain ⟨b, buf, rfl⟩ : ∃ b rest, buf = b :: rest := by
    cases buf with
    | nil => simp [decode] at h
    | cons b buf => exact ⟨b, buf, rfl⟩
  simp only [decode, List.length_cons, Nat.add_one_ne_zero, dite_false, List.getElem_cons_zero,
    List.cons_append] at h ⊢
  split at h
  · split at h <;> cases h
  split at h
  · split at h <;> cases h
  rename_i hne4 hne6
  rw [if_neg hne4, if_neg hne6]
  split at h
  · rename_i hatyp
    split at h
    · cases h
    rename_i htwo
    split at h
    · cases h
    rename_i hlen
    rw [if_pos hatyp]
    obtain ⟨b', buf, rfl⟩ := List.exists_cons_of_length_pos (show 0 < buf.length by omega)
    simp only [List.cons_append, List.getElem_cons_succ, List.getElem_cons_zero, List.length_cons,
      List.length_append, List.drop_succ_cons, List.drop_zero] at h hlen ⊢
    rw [dif_neg (by omega), dif_neg (by omega), List.take_append_of_le_length (by omega)]
    split at h
    · exact h
    · cases h
  · rename_i hdomain
    rw [if_neg hdomain]
    exact h

/-- A prefix can be neither accepted nor rejected: the verdict would stand for the whole
encoding, which is accepted at its full length. -/
theorem decode_part_of_encode {a : Address} (ha : a.Encodable) {part more : List UInt8}
    (h : part ++ more = a.encode) (hmore : more ≠ []) : decode part = .needMoreData := by
  have hwhole := decode_encode_append ha []
  rw [List.append_nil, ← h] at hwhole
  cases hpart : decode part with
  | needMoreData => rfl
  | ok b n =>
      have hok := decode_append_of_ok hpart more
      have hle := (encode_eq_take_of_decode hpart).2.1
      rw [hwhole] at hok
      cases hok
      have hpos := List.length_pos_of_ne_nil hmore
      rw [List.length_append] at hle
      omega
  | invalid message =>
      rw [decode_append_of_invalid hpart more] at hwhole
      cases hwhole

/-- Decoding inverts encoding, encoding inverts decoding, and no proper prefix of an
encoding is judged. -/
theorem encode_decode_inverse :
    (∀ a : Address, a.Encodable → ∀ rest, decode (a.encode ++ rest) = .ok a a.encode.length) ∧
      (∀ buf a n, decode buf = .ok a n → n ≤ buf.length ∧ a.encode = buf.take n) ∧
      ∀ a : Address, a.Encodable → ∀ part more, part ++ more = a.encode → more ≠ [] →
        decode part = .needMoreData :=
  ⟨fun _ ha rest => decode_encode_append ha rest,
    fun _ _ _ h => (encode_eq_take_of_decode h).2,
    fun _ ha _ _ => decode_part_of_encode ha⟩

end TrojanServer.Protocol.Address
