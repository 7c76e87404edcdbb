import Mathlib.Algebra.BigOperators.Ring.List
import TrojanServer.GrpcVarint

namespace TrojanServer.GrpcCodec

open TrojanServer.AsyncIo

/-- The number written in groups of seven bits, lowest first. -/
def varintValue (bytes : List UInt8) : Nat :=
  (bytes.mapIdx fun i byte => (byte &&& 0x7F).toNat * 128 ^ i).sum

/-- The first `n` bytes are one varint: the last of them has no continuation bit,
the ones before it have. -/
def IsEncoding (data : List UInt8) (n : Nat) : Prop :=
  ∃ head last rest, data = head ++ last :: rest ∧ n = head.length + 1 ∧
    (∀ byte ∈ head, byte &&& 0x80 ≠ 0) ∧ last &&& 0x80 = 0

/-- What is read is what is written, and what does not fit is not read. -/
structure ReadsExactly (data : List UInt8) : Prop where
  read : ∀ v n, decodeVarint data = .ok (v, n) →
    n ≤ 10 ∧ IsEncoding data n ∧ v.toNat = varintValue (data.take n)
  reject : ∀ n, IsEncoding data n → 2 ^ 64 ≤ varintValue (data.take n) →
    ∃ e, decodeVarint data = .error e

/-- Nine bytes that continue, and a tenth that ends the varint and is more than one. -/
def Overlong (data : List UInt8) : Prop :=
  ∃ head last rest, data = head ++ last :: rest ∧ head.length = 9 ∧
    (∀ byte ∈ head, byte &&& 0x80 ≠ 0) ∧ last &&& 0x80 = 0 ∧ 1 < last

section Value

@[simp] theorem varintValue_nil : varintValue [] = 0 := rfl

theorem varintValue_cons (byte : UInt8) (bytes : List UInt8) :
    varintValue (byte :: bytes) = byte.toNat % 128 + varintValue bytes * 128 := by
  have hshift : (bytes.mapIdx fun i byte => (byte &&& 0x7F).toNat * 128 ^ (i + 1)) =
      (bytes.mapIdx fun i byte => (byte &&& 0x7F).toNat * 128 ^ i).map (· * 128) := by
    apply List.ext_getElem
    · simp
    · intro i hleft hright
      simp [Nat.pow_succ, Nat.mul_assoc]
  rw [varintValue, List.mapIdx_cons, List.sum_cons, hshift, List.sum_map_mul_right, List.map_id',
    toNat_payload, Nat.pow_zero, Nat.mul_one, varintValue]

theorem varintValue_lt (bytes : List UInt8) : varintValue bytes < 128 ^ bytes.length := by
  induction bytes with
  | nil => decide
  | cons byte bytes ih =>
      rw [varintValue_cons, List.length_cons, Nat.pow_succ]
      omega

theorem varintValue_append_singleton (bytes : List UInt8) (last : UInt8) :
    varintValue (bytes ++ [last]) =
      varintValue bytes + last.toNat % 128 * 128 ^ bytes.length := by
  induction bytes with
  | nil => simp [varintValue_cons]
  | cons byte bytes ih =>
      rw [List.cons_append, varintValue_cons, varintValue_cons, ih, List.length_cons, Nat.pow_succ]
      rw [Nat.add_mul, Nat.mul_assoc, Nat.add_assoc]

end Value

section Decoding

/-- The loop after `i` bytes reads up to the first byte without continuation bit. -/
theorem value_of_decodeVarintFrom {data : List UInt8} {i n : Nat} {result v : UInt64}
    (hresult : result.toNat < 2 ^ (7 * i))
    (h : decodeVarintFrom data i (7 * i) result = .ok (v, n)) :
    ∃ head last rest, data = head ++ last :: rest ∧ n = i + (head.length + 1) ∧ n ≤ 10 ∧
      (∀ byte ∈ head, byte &&& 0x80 ≠ 0) ∧ last &&& 0x80 = 0 ∧
      v.toNat = (result.toNat + varintValue (head ++ [last]) * 2 ^ (7 * i)) % 2 ^ 64 := by
  induction data generalizing i result with
  | nil => cases h
  | cons byte data ih =>
      rw [decodeVarintFrom] at h
      split at h
      · cases h
      rename_i hi
      simp only at h
      have hnat := toNat_or_shiftLeft_mod (b := byte) (by omega : 7 * i < 64) hresult
      split at h
      · rename_i hlast
        cases h
        refine ⟨[], byte, data, rfl, rfl, by omega, by simp, hlast, ?_⟩
        rw [← Nat.mod_eq_of_lt (UInt64.toNat_lt _), hnat, Nat.add_mod_mod]
        simp [varintValue_cons]
      · rename_i hmore
        have hpow : 2 ^ (7 * (i + 1)) = 128 * 2 ^ (7 * i) := by
          rw [Nat.mul_add, Nat.pow_add, Nat.mul_comm]
        have hbound : (result ||| ((byte &&& 0x7F).toUInt64 <<< UInt64.ofNat (7 * i))).toNat <
            2 ^ (7 * (i + 1)) := by
          have hmod := Nat.mod_le (byte.toNat % 128 * 2 ^ (7 * i)) (2 ^ 64)
          have hgroup : byte.toNat % 128 * 2 ^ (7 * i) ≤ 127 * 2 ^ (7 * i) :=
            Nat.mul_le_mul_right _ (by omega)
          omega
        obtain ⟨head, last, rest, rfl, rfl, hn, hhead, hlast, hv⟩ := ih hbound h
        refine ⟨byte :: head, last, rest, rfl, ?_, hn, ?_, hlast, ?_⟩
        · simp only [List.length_cons]
          omega
        · intro b hb
          rcases List.mem_cons.mp hb with rfl | hb
          · exact hmore
          · exact hhead b hb
        · rw [hv, hnat, List.cons_append, varintValue_cons, Nat.add_mul, hpow, Nat.mul_assoc,
            Nat.add_right_comm, Nat.add_mod_mod, Nat.add_right_comm, Nat.add_assoc]

theorem decodeVarintFrom_isOk {head : List UInt8} {last : UInt8} {i : Nat}
    (hhead : ∀ byte ∈ head, byte &&& 0x80 ≠ 0) (hlast : last &&& 0x80 = 0)
    (hi : i + head.length < 10) (rest : List UInt8) (shift : Nat) (result : UInt64) :
    ∃ v, decodeVarintFrom (head ++ last :: rest) i shift result = .ok (v, i + head.length + 1) := by
  induction head generalizing i shift result with
  | nil =>
      have hi : ¬ 10 ≤ i := by simpa using hi
      exact ⟨_, by simp [decodeVarintFrom, hi, hlast]; rfl⟩
  | cons byte head ih =>
      simp only [List.length_cons] at hi
      obtain ⟨v, hv⟩ := ih (i := i + 1) (fun b hb => hhead b (List.mem_cons_of_mem _ hb))
        (by omega) (shift + 7) (result ||| ((byte &&& 0x7F).toUInt64 <<< UInt64.ofNat shift))
      refine ⟨v, ?_⟩
      rw [List.cons_append, decodeVarintFrom, if_neg (by omega)]
      simp only
      rw [if_neg (hhead byte List.mem_cons_self), hv, List.length_cons]
      congr 2
      omega

end Decoding

section Exactness

theorem isEncoding_unique {data : List UInt8} {n m : Nat} (hn : IsEncoding data n)
    (hm : IsEncoding data m) : n = m := by
  obtain ⟨head, last, rest, rfl, rfl, hhead, hlast⟩ := hn
  obtain ⟨head', last', rest', heq, rfl, hhead', hlast'⟩ := hm
  induction head generalizing head' with
  | nil =>
      cases head' with
      | nil => rfl
      | cons byte head' =>
          cases heq
          exact absurd hlast (hhead' last List.mem_cons_self)
  | cons byte head ih =>
      cases head' with
      | nil =>
          cases heq
          exact absurd hlast' (hhead last' List.mem_cons_self)
      | cons byte' head' =>
          simp only [List.cons_append, List.cons.injEq] at heq
          have hlen := ih (fun b hb => hhead b (List.mem_cons_of_mem _ hb)) head' heq.2
            (fun b hb => hhead' b (List.mem_cons_of_mem _ hb))
          simpa using hlen

/-- The value of at most nine groups fits, and of ten with a last one of at most one. -/
theorem varintValue_lt_word {head : List UInt8} {last : UInt8} (hlen : head.length ≤ 9)
    (hlast : head.length = 9 → last.toNat ≤ 1) : varintValue (head ++ [last]) < 2 ^ 64 := by
  have hvalue := varintValue_lt head
  rw [varintValue_append_singleton]
  rcases Nat.lt_or_eq_of_le hlen with hlt | heq
  · have hpow : 128 ^ head.length ≤ 128 ^ 8 := Nat.pow_le_pow_right (by decide) (by omega)
    have hgroup : last.toNat % 128 * 128 ^ head.length ≤ 127 * 128 ^ 8 :=
      Nat.mul_le_mul (by omega) hpow
    omega
  · have hone := hlast heq
    have hgroup : last.toNat % 128 * 128 ^ head.length ≤ 1 * 128 ^ 9 := by
      rw [heq]
      exact Nat.mul_le_mul_right _ (by omega)
    rw [heq] at hvalue hgroup ⊢
    omega

theorem take_encoding (head rest : List UInt8) (last : UInt8) :
    (head ++ last :: rest).take (head.length + 1) = head ++ [last] := by
  rw [List.append_cons head, ← List.length_concat, List.concat_eq_append, List.take_left]

/-- A varint is read as the number it stands for unless the tenth byte has bits that
do not fit into the word. -/
theorem decode_varint_exact_iff (data : List UInt8) : ReadsExactly data ↔ ¬ Overlong data := by
  constructor
  · rintro hexact ⟨head, last, rest, rfl, hlen, hhead, hlast, hone⟩
    obtain ⟨v, hv⟩ := decodeVarintFrom_isOk (i := 0) hhead hlast (by omega) rest 0 0
    obtain ⟨-, -, hvalue⟩ := hexact.read v _ hv
    have hsmall := (continuation_eq_zero_iff last).mp hlast
    have hone : 1 < last.toNat := UInt8.lt_iff_toNat_lt.mp hone
    have hgroup : 2 * 128 ^ 9 ≤ last.toNat % 128 * 128 ^ 9 := Nat.mul_le_mul_right _ (by omega)
    rw [Nat.zero_add, take_encoding, varintValue_append_singleton, hlen] at hvalue
    have hfits := v.toNat_lt
    omega
  · intro hfits
    have hread : ∀ v n, decodeVarint data = .ok (v, n) →
        n ≤ 10 ∧ IsEncoding data n ∧ v.toNat = varintValue (data.take n) := by
      intro v n h
      obtain ⟨head, last, rest, rfl, rfl, hn, hhead, hlast, hv⟩ :=
        value_of_decodeVarintFrom (i := 0) (by decide) h
      simp only [Nat.zero_add] at hn hv ⊢
      refine ⟨hn, ⟨head, last, rest, rfl, rfl, hhead, hlast⟩, ?_⟩
      rw [take_encoding, hv]
      simp only [UInt64.toNat_zero, Nat.mul_zero, Nat.pow_zero, Nat.mul_one, Nat.zero_add]
      apply Nat.mod_eq_of_lt
      refine varintValue_lt_word (by omega) fun hnine => ?_
      exact Nat.le_of_not_lt fun hone =>
        hfits ⟨head, last, rest, rfl, hnine, hhead, hlast, UInt8.lt_iff_toNat_lt.mpr hone⟩
    refine ⟨hread, fun n hn hlarge => ?_⟩
    cases h : decodeVarint data with
    | error e => exact ⟨e, rfl⟩
    | ok read =>
        obtain ⟨v, m⟩ := read
        obtain ⟨-, hm, hv⟩ := hread v m h
        obtain rfl := isEncoding_unique hn hm
        have hfit := v.toNat_lt
        omega

/-- Nine empty groups and a tenth of value two stand for 2 ^ 64 and are read as zero,
and a frame with such a field is accepted as an empty message. -/
theorem overlong_varint_read_as_zero :
    decodeVarint (List.replicate 9 0x80 ++ [0x02]) = .ok (0, 10) ∧
      varintValue (List.replicate 9 0x80 ++ [0x02]) = 2 ^ 64 ∧
      ¬ ReadsExactly (List.replicate 9 0x80 ++ [0x02]) ∧
      parseGrpcMessageZerocopy ([0, 0, 0, 0, 11, 0x0A] ++ (List.replicate 9 0x80 ++ [0x02])) =
        (.ok (some ([], 16)), []) := by
  refine ⟨by decide, by decide, fun hexact => ?_, by decide⟩
  obtain ⟨-, -, hv⟩ := hexact.read 0 10 (by decide)
  exact absurd hv (by decide)

end Exactness

end TrojanServer.GrpcCodec
