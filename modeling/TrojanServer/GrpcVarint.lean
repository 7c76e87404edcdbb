import Mathlib.Data.Nat.Bitwise
import Mathlib.Data.Nat.Log
import TrojanServer.GrpcCodec

namespace TrojanServer.GrpcCodec

open TrojanServer.AsyncIo

section Bytes

theorem toNat_low7 (v : UInt64) : ((v &&& 0x7F).toUInt8).toNat = v.toNat % 128 := by
  have hmask : (v &&& 0x7F).toNat = v.toNat % 128 := by
    rw [UInt64.toNat_and]
    exact Nat.and_two_pow_sub_one_eq_mod v.toNat 7
  rw [UInt64.toNat_toUInt8, hmask]
  omega

theorem toNat_shiftRight7 (v : UInt64) : (v >>> 7).toNat = v.toNat / 128 := by
  rw [UInt64.toNat_shiftRight]
  exact Nat.shiftRight_eq_div_pow v.toNat 7

theorem shiftRight7_eq_zero_iff (v : UInt64) : v >>> 7 = 0 ↔ v.toNat < 128 := by
  rw [← UInt64.toNat_inj, toNat_shiftRight7]
  simp only [UInt64.toNat_zero]
  omega

theorem toNat_or_continuation {b : UInt8} (h : b.toNat < 128) :
    (b ||| 0x80).toNat = b.toNat + 128 := by
  have hor := Nat.two_pow_add_eq_or_of_lt (i := 7) h 1
  rw [UInt8.toNat_or, Nat.or_comm]
  exact hor.symm.trans (Nat.add_comm _ _)

theorem continuation_eq_zero_iff (b : UInt8) : b &&& 0x80 = 0 ↔ b.toNat < 128 := by
  have hlt := b.toNat_lt
  have hand := Nat.and_two_pow b.toNat 7
  rw [Nat.testBit_eq_decide_div_mod_eq] at hand
  rw [← UInt8.toNat_inj, UInt8.toNat_and]
  change b.toNat &&& 2 ^ 7 = 0 ↔ _
  rw [hand]
  rcases Nat.lt_or_ge b.toNat 128 with hsmall | hlarge
  · simp [Nat.div_eq_of_lt hsmall, hsmall]
  · have hone : b.toNat / 128 % 2 = 1 := by omega
    simp [hone, Nat.not_lt.mpr hlarge]

theorem toNat_payload (b : UInt8) : (b &&& 0x7F).toNat = b.toNat % 128 := by
  rw [UInt8.toNat_and]
  exact Nat.and_two_pow_sub_one_eq_mod b.toNat 7

/-- Seven more bits above the bits read so far; those beyond the word are lost. -/
theorem toNat_or_shiftLeft_mod {result : UInt64} {b : UInt8} {shift : Nat} (hshift : shift < 64)
    (hresult : result.toNat < 2 ^ shift) :
    (result ||| ((b &&& 0x7F).toUInt64 <<< UInt64.ofNat shift)).toNat =
      result.toNat + b.toNat % 128 * 2 ^ shift % 2 ^ 64 := by
  have hcount : (UInt64.ofNat shift).toNat % 64 = shift := by
    rw [UInt64.toNat_ofNat']
    omega
  have hmod : b.toNat % 128 * 2 ^ shift % 2 ^ 64 =
      2 ^ shift * (b.toNat % 128 % 2 ^ (64 - shift)) := by
    rw [show 64 = (64 - shift) + shift by omega, Nat.pow_add, Nat.mul_mod_mul_right,
      Nat.add_sub_cancel, Nat.mul_comm]
  rw [UInt64.toNat_or, UInt64.toNat_shiftLeft, hcount, UInt8.toNat_toUInt64, toNat_payload,
    Nat.shiftLeft_eq, hmod, Nat.or_comm, ← Nat.two_pow_add_eq_or_of_lt hresult, Nat.add_comm]

theorem toNat_or_shiftLeft {result : UInt64} {b : UInt8} {shift : Nat} (hshift : shift < 64)
    (hresult : result.toNat < 2 ^ shift) (hfit : b.toNat % 128 * 2 ^ shift < 2 ^ 64) :
    (result ||| ((b &&& 0x7F).toUInt64 <<< UInt64.ofNat shift)).toNat =
      result.toNat + b.toNat % 128 * 2 ^ shift := by
  rw [toNat_or_shiftLeft_mod hshift hresult, Nat.mod_eq_of_lt hfit]

end Bytes

section Decoding

theorem decodeVarintFrom_append {data more : List UInt8} {i shift n : Nat} {result v : UInt64}
    (h : decodeVarintFrom data i shift result = .ok (v, n)) :
    decodeVarintFrom (data ++ more) i shift result = .ok (v, n) := by
  induction data generalizing i shift result with
  | nil => cases h
  | cons byte data ih =>
      simp only [List.cons_append, decodeVarintFrom] at h ⊢
      split at h
      · cases h
      · rename_i hlen
        rw [if_neg hlen]
        split at h
        · rename_i hlast
          rw [if_pos hlast]
          exact h
        · rename_i hlast
          rw [if_neg hlast]
          exact ih h

/-- A varint that was read is its own bytes, whatever follows them. -/
theorem decodeVarintFrom_take {data : List UInt8} {i shift n : Nat} {result v : UInt64}
    (h : decodeVarintFrom data i shift result = .ok (v, n)) :
    i < n ∧ n ≤ i + data.length ∧
      decodeVarintFrom (data.take (n - i)) i shift result = .ok (v, n) := by
  induction data generalizing i shift result with
  | nil => cases h
  | cons byte data ih =>
      simp only [decodeVarintFrom] at h
      split at h
      · cases h
      · rename_i hlen
        split at h
        · rename_i hlast
          cases h
          simp [decodeVarintFrom, hlen, hlast]
        · rename_i hlast
          obtain ⟨hlt, hle, htake⟩ := ih h
          refine ⟨by omega, by simp only [List.length_cons]; omega, ?_⟩
          rw [show n - i = n - (i + 1) + 1 by omega, List.take_succ_cons]
          simpa [decodeVarintFrom, hlen, hlast] using htake

theorem decodeVarint_append {data : List UInt8} {n : Nat} {v : UInt64}
    (h : decodeVarint data = .ok (v, n)) (more : List UInt8) :
    decodeVarint (data ++ more) = .ok (v, n) :=
  decodeVarintFrom_append h

theorem decodeVarint_take {data : List UInt8} {n : Nat} {v : UInt64}
    (h : decodeVarint data = .ok (v, n)) :
    0 < n ∧ n ≤ data.length ∧ decodeVarint (data.take n) = .ok (v, n) := by
  simpa [decodeVarint] using decodeVarintFrom_take h

end Decoding

section Encoding

theorem encodeVarintFrom_last {rounds : Nat} {v : UInt64} (h : v.toNat < 128) :
    encodeVarintFrom (rounds + 1) v = [(v &&& 0x7F).toUInt8] := by
  simp [encodeVarintFrom, (shiftRight7_eq_zero_iff v).mpr h]

theorem encodeVarintFrom_more {rounds : Nat} {v : UInt64} (h : ¬ v.toNat < 128) :
    encodeVarintFrom (rounds + 1) v =
      ((v &&& 0x7F).toUInt8 ||| 0x80) :: encodeVarintFrom rounds (v >>> 7) := by
  simp [encodeVarintFrom, mt (shiftRight7_eq_zero_iff v).mp h]

theorem varintLen_of_lt {v : UInt64} (h : v.toNat < 128) : varintLen v = 1 := by
  unfold varintLen
  split
  · rfl
  · rename_i hne
    have hpos : v.toNat ≠ 0 := fun hzero => hne (UInt64.toNat_inj.mp hzero)
    have hlog : v.toNat.log2 < 7 := (Nat.log2_lt hpos).mpr h
    simp only
    omega

theorem varintLen_of_ge {v : UInt64} (h : ¬ v.toNat < 128) :
    varintLen v = varintLen (v >>> 7) + 1 := by
  have hlog : (v >>> 7).toNat.log2 + 7 = v.toNat.log2 := by
    have hle : 7 ≤ Nat.log 2 v.toNat := Nat.le_log_of_pow_le (by decide) (by omega)
    rw [toNat_shiftRight7, Nat.log2_eq_log_two, Nat.log2_eq_log_two]
    change Nat.log 2 (v.toNat / 2 ^ 7) + 7 = _
    rw [Nat.log_div_base_pow]
    omega
  have hne : v ≠ 0 := by
    rintro rfl
    exact h (by decide)
  have hne' : v >>> 7 ≠ 0 := mt (shiftRight7_eq_zero_iff v).mp h
  simp only [varintLen, hne, hne', if_false]
  omega

theorem varintLen_le (v : UInt64) : varintLen v ≤ 10 := by
  have hlog : v.toNat.log2 ≤ 63 := by
    rcases Nat.eq_zero_or_pos v.toNat with hzero | hpos
    · simp [hzero]
    · exact Nat.lt_succ_iff.mp ((Nat.log2_lt hpos.ne').mpr v.toNat_lt)
  unfold varintLen
  split
  · omega
  · simp only
    omega

theorem varintLen_pos (v : UInt64) : 1 ≤ varintLen v := by
  rcases Nat.lt_or_ge v.toNat 128 with hlt | hge
  · rw [varintLen_of_lt hlt]
  · rw [varintLen_of_ge (Nat.not_lt.mpr hge)]
    exact Nat.le_add_left 1 _

theorem length_encodeVarintFrom {rounds : Nat} {v : UInt64}
    (h : v.toNat < 128 ^ (rounds + 1)) :
    (encodeVarintFrom (rounds + 1) v).length = varintLen v := by
  induction rounds generalizing v with
  | zero =>
      have hlt : v.toNat < 128 := by simpa using h
      rw [encodeVarintFrom_last hlt, varintLen_of_lt hlt]
      rfl
  | succ rounds ih =>
      rcases Nat.lt_or_ge v.toNat 128 with hlt | hge
      · rw [encodeVarintFrom_last hlt, varintLen_of_lt hlt]
        rfl
      · have hmore : ¬ v.toNat < 128 := by omega
        have hrest : (v >>> 7).toNat < 128 ^ (rounds + 1) := by
          rw [toNat_shiftRight7, Nat.div_lt_iff_lt_mul (by decide)]
          exact h.trans_eq (Nat.pow_succ ..)
        rw [encodeVarintFrom_more hmore, List.length_cons, ih hrest, varintLen_of_ge hmore]

theorem length_encodeVarint (v : UInt64) : (encodeVarint v).length = varintLen v :=
  length_encodeVarintFrom (v.toNat_lt.trans (by decide))

theorem decodeVarintFrom_last {i : Nat} {v result : UInt64} (hv : v.toNat < 128) (hi : i < 10)
    (hresult : result.toNat < 2 ^ (7 * i)) (hfit : v.toNat * 2 ^ (7 * i) < 2 ^ 64)
    (rest : List UInt8) :
    decodeVarintFrom ((v &&& 0x7F).toUInt8 :: rest) i (7 * i) result =
      .ok (UInt64.ofNat (result.toNat + v.toNat * 2 ^ (7 * i)), i + 1) := by
  have hbyte := toNat_low7 v
  rw [Nat.mod_eq_of_lt hv] at hbyte
  have hshift : 7 * i < 64 := by omega
  have hnat := toNat_or_shiftLeft (b := (v &&& 0x7F).toUInt8) hshift hresult
    (by rw [hbyte, Nat.mod_eq_of_lt hv]; exact hfit)
  rw [hbyte, Nat.mod_eq_of_lt hv] at hnat
  have hlast := (continuation_eq_zero_iff (v &&& 0x7F).toUInt8).mpr (by omega)
  rw [decodeVarintFrom, if_neg (by omega)]
  simp only
  rw [if_pos hlast, ← hnat, UInt64.ofNat_toNat]

theorem decodeVarintFrom_more {i : Nat} {v result : UInt64} (hi : i < 10)
    (hresult : result.toNat < 2 ^ (7 * i)) (hfit : v.toNat * 2 ^ (7 * i) < 2 ^ 64)
    (data : List UInt8) : ∃ result' : UInt64,
      result'.toNat = result.toNat + v.toNat % 128 * 2 ^ (7 * i) ∧
      decodeVarintFrom (((v &&& 0x7F).toUInt8 ||| 0x80) :: data) i (7 * i) result =
        decodeVarintFrom data (i + 1) (7 * (i + 1)) result' := by
  have hlow := toNat_low7 v
  have hbyte : ((v &&& 0x7F).toUInt8 ||| 0x80).toNat = v.toNat % 128 + 128 := by
    rw [toNat_or_continuation (by omega), hlow]
  have hmod : ((v &&& 0x7F).toUInt8 ||| 0x80).toNat % 128 = v.toNat % 128 := by omega
  have hle : v.toNat % 128 * 2 ^ (7 * i) ≤ v.toNat * 2 ^ (7 * i) :=
    Nat.mul_le_mul_right _ (Nat.mod_le _ _)
  have hshift : 7 * i < 64 := by omega
  have hnat := toNat_or_shiftLeft (b := (v &&& 0x7F).toUInt8 ||| 0x80) hshift hresult
    (by rw [hmod]; omega)
  rw [hmod] at hnat
  have hmore := mt (continuation_eq_zero_iff ((v &&& 0x7F).toUInt8 ||| 0x80)).mp (by omega)
  refine ⟨_, hnat, ?_⟩
  rw [decodeVarintFrom, if_neg (by omega)]
  simp only
  rw [if_neg hmore, Nat.mul_succ]

/-- The reader after `i` bytes, at the rest of a value written by the writer. -/
theorem decodeVarintFrom_encodeVarintFrom {rounds i : Nat} {v result : UInt64}
    (hv : v.toNat < 128 ^ (rounds + 1)) (hi : i + (rounds + 1) ≤ 10)
    (hresult : result.toNat < 2 ^ (7 * i)) (hfit : v.toNat * 2 ^ (7 * i) < 2 ^ 64)
    (rest : List UInt8) :
    decodeVarintFrom (encodeVarintFrom (rounds + 1) v ++ rest) i (7 * i) result =
      .ok (UInt64.ofNat (result.toNat + v.toNat * 2 ^ (7 * i)),
        i + (encodeVarintFrom (rounds + 1) v).length) := by
  induction rounds generalizing i v result with
  | zero =>
      have hlt : v.toNat < 128 := by simpa using hv
      rw [encodeVarintFrom_last hlt]
      exact decodeVarintFrom_last hlt (by omega) hresult hfit rest
  | succ rounds ih =>
      rcases Nat.lt_or_ge v.toNat 128 with hlt | hge
      · rw [encodeVarintFrom_last hlt]
        exact decodeVarintFrom_last hlt (by omega) hresult hfit rest
      · have hpow : 2 ^ (7 * (i + 1)) = 128 * 2 ^ (7 * i) := by
          rw [Nat.mul_add, Nat.pow_add, Nat.mul_comm]
        have hsplit : v.toNat = v.toNat / 128 * 128 + v.toNat % 128 := by omega
        have hvalue : v.toNat % 128 * 2 ^ (7 * i) + v.toNat / 128 * 2 ^ (7 * (i + 1)) =
            v.toNat * 2 ^ (7 * i) := by
          rw [hpow, ← Nat.mul_assoc, ← Nat.add_mul, Nat.add_comm, ← hsplit]
        obtain ⟨result', hresult', hstep⟩ := decodeVarintFrom_more (by omega) hresult hfit
          (encodeVarintFrom (rounds + 1) (v >>> 7) ++ rest)
        have hrest : (v >>> 7).toNat < 128 ^ (rounds + 1) := by
          rw [toNat_shiftRight7, Nat.div_lt_iff_lt_mul (by decide)]
          exact hv.trans_eq (Nat.pow_succ ..)
        have hbound : result'.toNat < 2 ^ (7 * (i + 1)) := by
          have hdigit : v.toNat % 128 * 2 ^ (7 * i) ≤ 127 * 2 ^ (7 * i) :=
            Nat.mul_le_mul_right _ (by omega)
          omega
        rw [encodeVarintFrom_more (by omega), List.cons_append, hstep,
          ih hrest (by omega) hbound (by rw [toNat_shiftRight7]; omega), toNat_shiftRight7,
          hresult', Nat.add_assoc, hvalue, List.length_cons]
        simp only [Except.ok.injEq, Prod.mk.injEq, true_and]
        omega

/-- What the writer emits for a value is read back as it, whatever follows. -/
theorem decodeVarint_encodeVarint_append (v : UInt64) (rest : List UInt8) :
    decodeVarint (encodeVarint v ++ rest) = .ok (v, (encodeVarint v).length) := by
  have hv : v.toNat < 128 ^ (9 + 1) := v.toNat_lt.trans (by decide)
  have hzero : (0 : UInt64).toNat < 2 ^ (7 * 0) := by decide
  have h := decodeVarintFrom_encodeVarintFrom hv (by decide) hzero (by simpa using v.toNat_lt) rest
  simpa [decodeVarint, encodeVarint] using h

/-- The writer emits as many bytes as were counted for it, and the reader takes them back. -/
theorem encodeVarint_roundTrip (v : UInt64) (rest : List UInt8) :
    (encodeVarint v).length = varintLen v ∧ 1 ≤ varintLen v ∧ varintLen v ≤ 10 ∧
      decodeVarint (encodeVarint v ++ rest) = .ok (v, varintLen v) := by
  refine ⟨length_encodeVarint v, varintLen_pos v, varintLen_le v, ?_⟩
  rw [decodeVarint_encodeVarint_append, length_encodeVarint]

end Encoding

end TrojanServer.GrpcCodec
