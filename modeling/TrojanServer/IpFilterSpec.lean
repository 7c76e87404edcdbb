import TrojanServer.Cidr
import TrojanServer.IpFilter

namespace TrojanServer.IpFilter

open TrojanServer.Cidr
open TrojanServer.FrameDecoding
open TrojanServer.IpText

section Blocks

def ipv4 (a b c d : UInt8) : Octets 4 := a ::ᵥ b ::ᵥ c ::ᵥ d ::ᵥ .nil

def privateIpv4Blocks : List (Block 4) :=
  [⟨ipv4 0 0 0 0, 8⟩, ⟨ipv4 10 0 0 0, 8⟩, ⟨ipv4 100 64 0 0, 10⟩, ⟨ipv4 127 0 0 0, 8⟩,
    ⟨ipv4 169 254 0 0, 16⟩, ⟨ipv4 172 16 0 0, 12⟩, ⟨ipv4 192 0 0 0, 24⟩,
    ⟨ipv4 192 168 0 0, 16⟩, ⟨ipv4 224 0 0 0, 4⟩]

def privateIpv6Blocks : List (Block 16) :=
  [⟨ofSegments [0xff00], 8⟩, ⟨ofSegments [0xfc00], 7⟩, ⟨ofSegments [0xfe80], 10⟩]

/-- The IPv6 address with these 96 leading bits that carries an IPv4 one. -/
def carrying (high : Octets 12) (ip : Octets 4) : Octets 16 := high ++ ip

def mappedHigh : Octets 12 :=
  0 ::ᵥ 0 ::ᵥ 0 ::ᵥ 0 ::ᵥ 0 ::ᵥ 0 ::ᵥ 0 ::ᵥ 0 ::ᵥ 0 ::ᵥ 0 ::ᵥ 0xff ::ᵥ 0xff ::ᵥ .nil

def compatibleHigh : Octets 12 :=
  0 ::ᵥ 0 ::ᵥ 0 ::ᵥ 0 ::ᵥ 0 ::ᵥ 0 ::ᵥ 0 ::ᵥ 0 ::ᵥ 0 ::ᵥ 0 ::ᵥ 0 ::ᵥ 0 ::ᵥ .nil

def nat64High : Octets 12 :=
  0 ::ᵥ 0x64 ::ᵥ 0xff ::ᵥ 0x9b ::ᵥ 0 ::ᵥ 0 ::ᵥ 0 ::ᵥ 0 ::ᵥ 0 ::ᵥ 0 ::ᵥ 0 ::ᵥ 0 ::ᵥ .nil

end Blocks

section Ipv4

theorem exists_ipv4 (ip : Octets 4) : ∃ a b c d, ip = ipv4 a b c d := by
  obtain ⟨a, ip, rfl⟩ := ip.exists_eq_cons
  obtain ⟨b, ip, rfl⟩ := ip.exists_eq_cons
  obtain ⟨c, ip, rfl⟩ := ip.exists_eq_cons
  obtain ⟨d, ip, rfl⟩ := ip.exists_eq_cons
  obtain rfl := ip.eq_nil
  exact ⟨a, b, c, d, rfl⟩

variable {a b c d a' b' c' d' : UInt8}

theorem ipv4_eq_iff :
    ipv4 a b c d = ipv4 a' b' c' d' ↔ a = a' ∧ b = b' ∧ c = c' ∧ d = d' := by
  rw [← List.Vector.toList_injective.eq_iff]
  change [a, b, c, d] = [a', b', c', d'] ↔ _
  simp

theorem contains_iff {length : Nat} (h : length ≤ 24) :
    (Block.mk (ipv4 a' b' c' d') length).Contains (ipv4 a b c d) ↔
      (a.toNat * 65536 + (b.toNat * 256 + c.toNat)) / 2 ^ (24 - length) =
        (a'.toNat * 65536 + (b'.toNat * 256 + c'.toNat)) / 2 ^ (24 - length) := by
  change leading length ([a, b, c] ++ [d]) = leading length ([a', b', c'] ++ [d']) ↔ _
  rw [leading_append h, leading_append h]
  simp [leading, value]

theorem contains_8_iff :
    (Block.mk (ipv4 a' b' c' d') 8).Contains (ipv4 a b c d) ↔ a.toNat = a'.toNat := by
  have hb := b.toNat_lt
  have hc := c.toNat_lt
  have hb' := b'.toNat_lt
  have hc' := c'.toNat_lt
  rw [contains_iff (by decide)]
  omega

theorem contains_16_iff :
    (Block.mk (ipv4 a' b' c' d') 16).Contains (ipv4 a b c d) ↔
      a.toNat = a'.toNat ∧ b.toNat = b'.toNat := by
  have hb := b.toNat_lt
  have hc := c.toNat_lt
  have hb' := b'.toNat_lt
  have hc' := c'.toNat_lt
  rw [contains_iff (by decide)]
  omega

theorem masked_octet (octet : UInt8) : (octet &&& 0xC0) = 64 ↔ octet.toNat / 64 = 1 := by
  rw [← UInt8.toNat_inj, UInt8.toNat_and]
  change octet.toNat &&& (2 ^ 8 - 2 ^ 6) = 64 ↔ _
  rw [and_mask octet.toNat_lt (by decide)]
  omega

theorem isPrivateIpv4_iff (ip : Octets 4) :
    isPrivateIpv4 ip = true ↔
      (∃ block ∈ privateIpv4Blocks, block.Contains ip) ∨ ip = ipv4 255 255 255 255 := by
  obtain ⟨a, b, c, d, rfl⟩ := exists_ipv4 ip
  have hb := b.toNat_lt
  have hc := c.toNat_lt
  have hbroadcast : ipv4 a b c d = ipv4 255 255 255 255 ↔ isBroadcast (ipv4 a b c d) = true := by
    rw [isBroadcast, beq_iff_eq]
    exact List.Vector.toList_injective.eq_iff.symm
  have hshared : (Block.mk (ipv4 100 64 0 0) 10).Contains (ipv4 a b c d) ↔
      a.toNat = 100 ∧ b.toNat / 64 = 1 := by
    rw [contains_iff (by decide)]
    simp only [UInt8.reduceToNat]
    omega
  have hprivate : (Block.mk (ipv4 172 16 0 0) 12).Contains (ipv4 a b c d) ↔
      a.toNat = 172 ∧ 16 ≤ b.toNat ∧ b.toNat ≤ 31 := by
    rw [contains_iff (by decide)]
    simp only [UInt8.reduceToNat]
    omega
  have hietf : (Block.mk (ipv4 192 0 0 0) 24).Contains (ipv4 a b c d) ↔
      (a.toNat = 192 ∧ b.toNat = 0) ∧ c.toNat = 0 := by
    rw [contains_iff (by decide)]
    simp only [UInt8.reduceToNat]
    omega
  have hmulticast : (Block.mk (ipv4 224 0 0 0) 4).Contains (ipv4 a b c d) ↔
      224 ≤ a.toNat ∧ a.toNat ≤ 239 := by
    rw [contains_iff (by decide)]
    simp only [UInt8.reduceToNat]
    omega
  have h0 : octet (ipv4 a b c d) 0 = a := rfl
  have h1 : octet (ipv4 a b c d) 1 = b := rfl
  have h2 : octet (ipv4 a b c d) 2 = c := rfl
  simp only [isPrivateIpv4, isLoopback, isPrivate, isLinkLocal, isMulticast, h0, h1, h2,
    Bool.or_eq_true, Bool.and_eq_true, beq_iff_eq, decide_eq_true_eq, masked_octet]
  simp only [privateIpv4Blocks, List.mem_cons, List.not_mem_nil, or_false, exists_eq_or_imp,
    exists_eq_left, hbroadcast, hshared, hprivate, hietf, hmulticast, contains_8_iff,
    contains_16_iff, ← UInt8.toNat_inj, UInt8.le_iff_toNat_le, UInt8.reduceToNat]
  exact iff_of_eq (by ac_rfl)

end Ipv4

section Embedded

theorem exists_carrying (ip : Octets 16) : ∃ high low, ip = carrying high low := by
  obtain ⟨octets, hlength⟩ := ip
  refine ⟨⟨octets.take 12, by simp [hlength]⟩, ⟨octets.drop 12, by simp [hlength]⟩, ?_⟩
  exact Subtype.ext (List.take_append_drop 12 octets).symm

theorem carrying_eq_iff {high high' : Octets 12} {low low' : Octets 4} :
    carrying high low = carrying high' low' ↔ high = high' ∧ low = low' := by
  constructor
  · intro h
    have hlists := congrArg List.Vector.toList h
    simp only [carrying, List.Vector.toList_append] at hlists
    obtain ⟨hhigh, hlow⟩ := List.append_inj hlists (by simp)
    exact ⟨List.Vector.toList_injective hhigh, List.Vector.toList_injective hlow⟩
  · rintro ⟨rfl, rfl⟩
    rfl

theorem take_segments_eq_iff (high : Octets 12) (low : Octets 4) (g₀ g₁ g₂ g₃ g₄ g₅ : UInt16) :
    (segments (carrying high low)).take 6 = [g₀, g₁, g₂, g₃, g₄, g₅] ↔
      high.toList = [g₀, g₁, g₂, g₃, g₄, g₅].flatMap toBeBytes := by
  obtain ⟨a₀, high, rfl⟩ := high.exists_eq_cons
  obtain ⟨a₁, high, rfl⟩ := high.exists_eq_cons
  obtain ⟨a₂, high, rfl⟩ := high.exists_eq_cons
  obtain ⟨a₃, high, rfl⟩ := high.exists_eq_cons
  obtain ⟨a₄, high, rfl⟩ := high.exists_eq_cons
  obtain ⟨a₅, high, rfl⟩ := high.exists_eq_cons
  obtain ⟨a₆, high, rfl⟩ := high.exists_eq_cons
  obtain ⟨a₇, high, rfl⟩ := high.exists_eq_cons
  obtain ⟨a₈, high, rfl⟩ := high.exists_eq_cons
  obtain ⟨a₉, high, rfl⟩ := high.exists_eq_cons
  obtain ⟨a₁₀, high, rfl⟩ := high.exists_eq_cons
  obtain ⟨a₁₁, high, rfl⟩ := high.exists_eq_cons
  obtain rfl := high.eq_nil
  change [fromBeBytes a₀ a₁, fromBeBytes a₂ a₃, fromBeBytes a₄ a₅, fromBeBytes a₆ a₇,
    fromBeBytes a₈ a₉, fromBeBytes a₁₀ a₁₁] = _ ↔
    [a₀, a₁, a₂, a₃, a₄, a₅, a₆, a₇, a₈, a₉, a₁₀, a₁₁] =
    toBeBytes g₀ ++ (toBeBytes g₁ ++ (toBeBytes g₂ ++ (toBeBytes g₃ ++ (toBeBytes g₄ ++
      (toBeBytes g₅ ++ [])))))
  simp only [List.cons.injEq, fromBeBytes_eq_iff, and_true]
  simp only [toBeBytes, List.cons_append, List.nil_append, List.cons.injEq, and_true, and_assoc]

theorem get_carrying (high : Octets 12) (low : Octets 4) {i : Nat} (h : i < 4)
    (h' : 12 + i < 16) : (carrying high low).get ⟨12 + i, h'⟩ = low.get ⟨i, h⟩ := by
  obtain ⟨octets, hoctets⟩ := high
  obtain ⟨octets', hoctets'⟩ := low
  change (octets ++ octets').get ⟨12 + i, by simp [hoctets, hoctets', h']⟩ =
    octets'.get ⟨i, by simp [hoctets', h]⟩
  simp [List.getElem_append_right, hoctets]

theorem segment_carrying (high : Octets 12) (a b c d : UInt8) :
    segment (carrying high (ipv4 a b c d)) 6 = fromBeBytes a b ∧
      segment (carrying high (ipv4 a b c d)) 7 = fromBeBytes c d := by
  constructor
  · exact congrArg₂ fromBeBytes (get_carrying high _ (i := 0) (by decide) (by decide))
      (get_carrying high _ (i := 1) (by decide) (by decide))
  · exact congrArg₂ fromBeBytes (get_carrying high _ (i := 2) (by decide) (by decide))
      (get_carrying high _ (i := 3) (by decide) (by decide))

theorem ipv4FromHalves_eq (a b c d : UInt8) :
    ipv4FromHalves (fromBeBytes a b) (fromBeBytes c d) = ipv4 a b c d := by
  apply List.Vector.toList_injective
  change toBeBytes (fromBeBytes a b) ++ toBeBytes (fromBeBytes c d) = [a, b] ++ [c, d]
  rw [← (fromBeBytes_eq_iff a b _).mp rfl, ← (fromBeBytes_eq_iff c d _).mp rfl]

theorem toIpv4Mapped_carrying (high : Octets 12) (low : Octets 4) :
    toIpv4Mapped (carrying high low) = if high = mappedHigh then some low else none := by
  have hhigh : (carrying high low).toList.take 12 = high.toList := by
    rw [carrying, List.Vector.toList_append, List.take_left' (by simp)]
  have hlow : (⟨[(carrying high low).get 12, (carrying high low).get 13,
      (carrying high low).get 14, (carrying high low).get 15], rfl⟩ : Octets 4) = low := by
    obtain ⟨a, b, c, d, rfl⟩ := exists_ipv4 low
    have ha := get_carrying high (ipv4 a b c d) (i := 0) (by decide) (by decide)
    have hb := get_carrying high (ipv4 a b c d) (i := 1) (by decide) (by decide)
    have hc := get_carrying high (ipv4 a b c d) (i := 2) (by decide) (by decide)
    have hd := get_carrying high (ipv4 a b c d) (i := 3) (by decide) (by decide)
    apply List.Vector.toList_injective
    exact congrArg₂ _ ha (congrArg₂ _ hb (congrArg₂ _ hc (congrArg (· :: []) hd)))
  have hmapped : high.toList = mappedHigh.toList ↔ high = mappedHigh :=
    List.Vector.toList_injective.eq_iff
  rw [toIpv4Mapped, hhigh, hlow]
  exact if_congr hmapped rfl rfl

theorem halves_large_iff (a b c d : UInt8) :
    (fromBeBytes a b ≠ 0 ∨ 1 < fromBeBytes c d) ↔
      ipv4 a b c d ≠ ipv4 0 0 0 0 ∧ ipv4 a b c d ≠ ipv4 0 0 0 1 := by
  have hsmall : ¬ 1 < fromBeBytes c d ↔ fromBeBytes c d = 0 ∨ fromBeBytes c d = 1 := by
    simp only [UInt16.lt_iff_toNat_lt, ← UInt16.toNat_inj, UInt16.reduceToNat]
    omega
  have hzero : toBeBytes 0 = [0, 0] := rfl
  have hone : toBeBytes 1 = [0, 1] := rfl
  have hip : ∀ e, ipv4 a b c d = ipv4 0 0 0 e ↔ [a, b] = [0, 0] ∧ [c, d] = [0, e] := by
    intro e
    simp [ipv4_eq_iff, and_assoc]
  rw [← not_iff_not, not_or, not_not, hsmall, fromBeBytes_eq_iff, fromBeBytes_eq_iff,
    fromBeBytes_eq_iff, hzero, hone, not_and_or, not_not, not_not, hip, hip, and_or_left]

/-- Of the compatible form only `::` and `::1` are left to the IPv6 tests. -/
theorem embeddedIpv4_carrying (high : Octets 12) (low : Octets 4) :
    embeddedIpv4 (carrying high low) =
      if high = nat64High ∨ high = mappedHigh ∨
          (high = compatibleHigh ∧ low ≠ ipv4 0 0 0 0 ∧ low ≠ ipv4 0 0 0 1) then some low
      else none := by
  obtain ⟨a, b, c, d, rfl⟩ := exists_ipv4 low
  obtain ⟨hsix, hseven⟩ := segment_carrying high a b c d
  have hnat64 : (segments (carrying high (ipv4 a b c d))).take 6 = [0x64, 0xff9b, 0, 0, 0, 0] ↔
      high = nat64High :=
    (take_segments_eq_iff high _ _ _ _ _ _ _).trans
      (show high.toList = nat64High.toList ↔ _ from List.Vector.toList_injective.eq_iff)
  have hcompatible : (segments (carrying high (ipv4 a b c d))).take 6 = [0, 0, 0, 0, 0, 0] ↔
      high = compatibleHigh :=
    (take_segments_eq_iff high _ _ _ _ _ _ _).trans
      (show high.toList = compatibleHigh.toList ↔ _ from List.Vector.toList_injective.eq_iff)
  simp only [embeddedIpv4, hsix, hseven, ipv4FromHalves_eq, toIpv4Mapped_carrying, hnat64,
    hcompatible, halves_large_iff]
  by_cases h₁ : high = nat64High
  · simp [h₁]
  by_cases h₂ : high = mappedHigh
  · simp [h₂]
  · simp [h₁, h₂]

end Embedded

section Ipv6

variable (ip : Octets 16)

theorem value_pair (high low : UInt8) : value [high, low] = (fromBeBytes high low).toNat := by
  have hhigh := high.toNat_lt
  have hlow := low.toNat_lt
  simp only [value, fromBeBytes, UInt16.toNat_ofNat', List.length_cons, List.length_nil]
  omega

theorem leading_segment {length : Nat} (h : length ≤ 16) :
    leading length ip.toList = (segment ip 0).toNat / 2 ^ (16 - length) := by
  obtain ⟨a, ip, rfl⟩ := ip.exists_eq_cons
  obtain ⟨b, ip, rfl⟩ := ip.exists_eq_cons
  change leading length ([a, b] ++ ip.toList) = (fromBeBytes a b).toNat / _
  rw [leading_append h, leading, value_pair]
  rfl

theorem segment_ofSegments (group : UInt16) : segment (ofSegments [group]) 0 = group :=
  (fromBeBytes_eq_iff _ _ _).mpr rfl

/-- A masked comparison of the first segment is membership in a block. -/
theorem masked_segment_iff (group mask : UInt16) {length : Nat} (hlength : length ≤ 16)
    (hmask : mask.toNat = 2 ^ 16 - 2 ^ (16 - length))
    (hgroup : group.toNat / 2 ^ (16 - length) * 2 ^ (16 - length) = group.toNat) :
    (segment ip 0 &&& mask) = group ↔ (Block.mk (ofSegments [group]) length).Contains ip := by
  rw [Block.Contains, leading_segment ip hlength, leading_segment _ hlength, segment_ofSegments,
    ← UInt16.toNat_inj, UInt16.toNat_and, hmask, and_mask (segment ip 0).toNat_lt (by omega)]
  constructor
  · intro h
    rw [← h, Nat.mul_div_cancel _ (Nat.pow_pos (by decide))]
  · intro h
    rw [h, hgroup]

theorem high_of_segments {high : Octets 12} {low : Octets 4} {g₆ g₇ : UInt16}
    (h : segments (carrying high low) = [0, 0, 0, 0, 0, 0, g₆, g₇]) : high = compatibleHigh := by
  have htake : (segments (carrying high low)).take 6 = [0, 0, 0, 0, 0, 0] := by
    rw [h]
    rfl
  exact List.Vector.toList_injective ((take_segments_eq_iff high low _ _ _ _ _ _).mp htake)

/-- Both `::` and `::1` are of the compatible form. -/
theorem isPrivateIpv6_iff (hforms : ∀ v4, ip ≠ carrying mappedHigh v4 ∧
      ip ≠ carrying compatibleHigh v4 ∧ ip ≠ carrying nat64High v4) :
    isPrivateIpv6 ip = true ↔ ∃ block ∈ privateIpv6Blocks, block.Contains ip := by
  obtain ⟨high, low, rfl⟩ := exists_carrying ip
  obtain ⟨hmapped, hcompatible, hnat64⟩ :
      high ≠ mappedHigh ∧ high ≠ compatibleHigh ∧ high ≠ nat64High := by
    simpa [carrying_eq_iff] using hforms low
  have hnone : embeddedIpv4 (carrying high low) = none := by
    simp [embeddedIpv4_carrying, hmapped, hcompatible, hnat64]
  have hunspecified : segments (carrying high low) ≠ [0, 0, 0, 0, 0, 0, 0, 0] :=
    fun h => hcompatible (high_of_segments h)
  have hloopback : segments (carrying high low) ≠ [0, 0, 0, 0, 0, 0, 0, 1] :=
    fun h => hcompatible (high_of_segments h)
  have hmulticast := masked_segment_iff (carrying high low) 0xff00 0xff00
    (show 8 ≤ 16 by decide) rfl rfl
  have hula := masked_segment_iff (carrying high low) 0xfc00 0xfe00
    (show 7 ≤ 16 by decide) rfl rfl
  have hlinkLocal := masked_segment_iff (carrying high low) 0xfe80 0xffc0
    (show 10 ≤ 16 by decide) rfl rfl
  simp only [isPrivateIpv6, hnone, isIpv6Ula, isIpv6LinkLocal, Bool.or_eq_true, beq_iff_eq,
    hunspecified, hloopback, hmulticast, hula, hlinkLocal, privateIpv6Blocks, List.mem_cons,
    List.not_mem_nil, or_false, false_or, exists_eq_or_imp, exists_eq_left, or_assoc]

theorem isPrivateIpv6_compatible (v4 : Octets 4) :
    isPrivateIpv6 (carrying compatibleHigh v4) = isPrivateIpv4 v4 := by
  by_cases hzero : v4 = ipv4 0 0 0 0
  · rw [hzero]
    decide
  by_cases hone : v4 = ipv4 0 0 0 1
  · rw [hone]
    decide
  · simp [isPrivateIpv6, embeddedIpv4_carrying, hzero, hone]

end Ipv6

/-- The filter selects the listed blocks, and sees through the three forms of IPv6
address that carry an IPv4 one. -/
theorem isPrivateIp_blocks :
    (∀ ip : Octets 4, isPrivateIpv4 ip = true ↔
      (∃ block ∈ privateIpv4Blocks, block.Contains ip) ∨ ip = ipv4 255 255 255 255) ∧
    (∀ ip : Octets 4, isPrivateIpv6 (carrying mappedHigh ip) = isPrivateIpv4 ip ∧
      isPrivateIpv6 (carrying compatibleHigh ip) = isPrivateIpv4 ip ∧
      isPrivateIpv6 (carrying nat64High ip) = isPrivateIpv4 ip) ∧
    ∀ ip : Octets 16, (∀ v4, ip ≠ carrying mappedHigh v4 ∧ ip ≠ carrying compatibleHigh v4 ∧
        ip ≠ carrying nat64High v4) →
      (isPrivateIpv6 ip = true ↔ ∃ block ∈ privateIpv6Blocks, block.Contains ip) := by
  refine ⟨isPrivateIpv4_iff, ?_, isPrivateIpv6_iff⟩
  intro ip
  refine ⟨?_, isPrivateIpv6_compatible ip, ?_⟩
  · simp [isPrivateIpv6, embeddedIpv4_carrying]
  · simp [isPrivateIpv6, embeddedIpv4_carrying]

/-- A link-local address is none of the three forms. -/
theorem isPrivateIp_blocks_link_local :
    (∀ v4, ofSegments [0xfe80] ≠ carrying mappedHigh v4 ∧
      ofSegments [0xfe80] ≠ carrying compatibleHigh v4 ∧
      ofSegments [0xfe80] ≠ carrying nat64High v4) ∧
    isPrivateIpv6 (ofSegments [0xfe80]) = true := by
  have hforms : ∀ v4, ofSegments [0xfe80] ≠ carrying mappedHigh v4 ∧
      ofSegments [0xfe80] ≠ carrying compatibleHigh v4 ∧
      ofSegments [0xfe80] ≠ carrying nat64High v4 := by
    have hfirst : ∀ ip : Octets 16, ip.toList.head? = some 0 → ofSegments [0xfe80] ≠ ip := by
      rintro ip hip rfl
      exact absurd hip (by decide)
    exact fun v4 => ⟨hfirst _ rfl, hfirst _ rfl, hfirst _ rfl⟩
  exact ⟨hforms, (isPrivateIp_blocks.2.2 _ hforms).mpr (by decide)⟩

end TrojanServer.IpFilter
