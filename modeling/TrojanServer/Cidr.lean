import Mathlib.Algebra.GroupWithZero.Nat
import Mathlib.Data.Nat.Bitwise
import Mathlib.Data.Vector.Basic

namespace TrojanServer.Cidr

/-- The number the octets write, the most significant first. -/
def value : List UInt8 → Nat
  | [] => 0
  | octet :: octets => octet.toNat * 256 ^ octets.length + value octets

/-- The first `length` bits. -/
def leading (length : Nat) (octets : List UInt8) : Nat :=
  value octets / 2 ^ (8 * octets.length - length)

structure Block (n : Nat) where
  base : List.Vector UInt8 n
  length : Nat

def Block.Contains {n : Nat} (block : Block n) (addr : List.Vector UInt8 n) : Prop :=
  leading block.length addr.toList = leading block.length block.base.toList

instance {n : Nat} (block : Block n) (addr : List.Vector UInt8 n) :
    Decidable (block.Contains addr) :=
  inferInstanceAs (Decidable (_ = _))

theorem value_lt (octets : List UInt8) : value octets < 256 ^ octets.length := by
  induction octets with
  | nil => simp [value]
  | cons octet octets ih =>
      have hoctet := octet.toNat_lt
      calc
        value (octet :: octets) < octet.toNat * 256 ^ octets.length + 256 ^ octets.length :=
          Nat.add_lt_add_left ih _
        _ = (octet.toNat + 1) * 256 ^ octets.length := (Nat.succ_mul _ _).symm
        _ ≤ 256 * 256 ^ octets.length := Nat.mul_le_mul_right _ hoctet
        _ = 256 ^ (octet :: octets).length := by rw [List.length_cons, Nat.pow_succ, Nat.mul_comm]

theorem value_append (octets octets' : List UInt8) :
    value (octets ++ octets') = value octets * 256 ^ octets'.length + value octets' := by
  induction octets with
  | nil => simp [value]
  | cons octet octets ih =>
      simp only [List.cons_append, value, ih, List.length_append, Nat.pow_add, Nat.add_mul]
      rw [Nat.mul_assoc, Nat.add_assoc]

/-- The leading bits are read off the octets that hold them. -/
theorem leading_append {length : Nat} {octets : List UInt8} (h : length ≤ 8 * octets.length)
    (octets' : List UInt8) : leading length (octets ++ octets') = leading length octets := by
  have hsplit : 2 ^ (8 * (octets ++ octets').length - length) =
      256 ^ octets'.length * 2 ^ (8 * octets.length - length) := by
    rw [List.length_append, Nat.mul_add, Nat.add_comm, Nat.add_sub_assoc h, Nat.pow_add,
      Nat.pow_mul]
  have hvalue : value (octets ++ octets') / 256 ^ octets'.length = value octets := by
    rw [value_append, Nat.mul_comm, Nat.mul_add_div (Nat.pow_pos (by decide)),
      Nat.div_eq_of_lt (value_lt octets'), Nat.add_zero]
  rw [leading, hsplit, ← Nat.div_div_eq_div_mul, hvalue, leading]

/-- Masking the low bits of a word is division by the weight of the lowest bit kept. -/
theorem and_mask {x w k : Nat} (hx : x < 2 ^ w) (hk : k ≤ w) :
    x &&& (2 ^ w - 2 ^ k) = x / 2 ^ k * 2 ^ k := by
  have hmask : 2 ^ w - 2 ^ k = (2 ^ (w - k) - 1) <<< k := by
    rw [Nat.shiftLeft_eq, Nat.sub_mul, ← Nat.pow_add, Nat.sub_add_cancel hk, Nat.one_mul]
  rw [hmask, ← Nat.shiftRight_eq_div_pow, ← Nat.shiftLeft_eq]
  apply Nat.eq_of_testBit_eq
  intro i
  simp only [Nat.testBit_and, Nat.testBit_shiftLeft, Nat.testBit_shiftRight,
    Nat.testBit_two_pow_sub_one]
  by_cases hi : k ≤ i
  · by_cases hw : i < w
    · have hbit : i - k < w - k := by omega
      simp [hi, hbit]
    · have hzero : x.testBit i = false :=
        Nat.testBit_lt_two_pow (Nat.lt_of_lt_of_le hx (Nat.pow_le_pow_right (by decide) (by omega)))
      simp [hi, hzero]
  · simp [hi]

end TrojanServer.Cidr
