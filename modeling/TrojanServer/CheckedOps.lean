import Mathlib.Algebra.BigOperators.Group.List.Basic
import Mathlib.Algebra.GroupWithZero.Nat
import Mathlib.Data.List.Basic

/-!
Operations that can panic.  A computation over indices and integers of fixed width
either returns or stops with the operation that went out of range; a loop that does
not end within its fuel counts as diverging.
-/

namespace TrojanServer.CheckedOps

inductive Panic where
  | outOfRange
  | overflow
  | underflow
  | diverged
  deriving Repr, DecidableEq

abbrev Checked (α : Type*) := Except Panic α

variable {α β : Type}

def index (xs : List α) (i : Nat) : Checked α :=
  match xs[i]? with
  | some x => .ok x
  | none => .error .outOfRange

/-- The entries from `start` up to but not including `finish`. -/
def range (xs : List α) (start finish : Nat) : Checked (List α) :=
  if start ≤ finish ∧ finish ≤ xs.length then .ok ((xs.take finish).drop start)
  else .error .outOfRange

def splitTo (xs : List α) (n : Nat) : Checked (List α × List α) :=
  if n ≤ xs.length then .ok (xs.take n, xs.drop n) else .error .outOfRange

def add (bits a b : Nat) : Checked Nat :=
  if a + b < 2 ^ bits then .ok (a + b) else .error .overflow

def mul (bits a b : Nat) : Checked Nat :=
  if a * b < 2 ^ bits then .ok (a * b) else .error .overflow

def sub (a b : Nat) : Checked Nat :=
  if b ≤ a then .ok (a - b) else .error .underflow

def sum (bits : Nat) (xs : List Nat) : Checked Nat := xs.foldlM (add bits) 0

def shl (value : UInt64) (shift : Nat) : Checked UInt64 :=
  if shift < 64 then .ok (value <<< UInt64.ofNat shift) else .error .overflow

/-- Addition that reports an overflow to its caller. -/
def checkedAdd (bits a b : Nat) : Option Nat := if a + b < 2 ^ bits then some (a + b) else none

@[simp] theorem ok_bind (a : α) (f : α → Checked β) : (Except.ok a >>= f) = f a := rfl

theorem index_eq_ok {xs : List α} {i : Nat} (h : i < xs.length) : index xs i = .ok xs[i] := by
  simp [index, h]

theorem range_eq_ok {xs : List α} {start finish : Nat} (h : start ≤ finish)
    (hlen : finish ≤ xs.length) : range xs start finish = .ok ((xs.take finish).drop start) :=
  if_pos ⟨h, hlen⟩

theorem splitTo_eq_ok {xs : List α} {n : Nat} (h : n ≤ xs.length) :
    splitTo xs n = .ok (xs.take n, xs.drop n) :=
  if_pos h

theorem add_eq_ok {bits a b : Nat} (h : a + b < 2 ^ bits) : add bits a b = .ok (a + b) :=
  if_pos h

theorem mul_eq_ok {bits a b : Nat} (h : a * b < 2 ^ bits) : mul bits a b = .ok (a * b) :=
  if_pos h

theorem sub_eq_ok {a b : Nat} (h : b ≤ a) : sub a b = .ok (a - b) :=
  if_pos h

theorem shl_eq_ok {value : UInt64} {shift : Nat} (h : shift < 64) :
    shl value shift = .ok (value <<< UInt64.ofNat shift) :=
  if_pos h

theorem checkedAdd_filter_le {bits a b bound : Nat} (h : bound < 2 ^ bits) :
    (checkedAdd bits a b).filter (· ≤ bound) = if a + b ≤ bound then some (a + b) else none := by
  unfold checkedAdd
  split
  · simp [Option.filter]
  · rw [if_neg (by omega)]
    rfl

theorem sum_eq_ok {bits : Nat} {xs : List Nat} (h : xs.sum < 2 ^ bits) :
    sum bits xs = .ok xs.sum := by
  have hfold : ∀ acc, acc + xs.sum < 2 ^ bits → xs.foldlM (add bits) acc = .ok (acc + xs.sum) := by
    clear h
    induction xs with
    | nil =>
        intro acc _
        rfl
    | cons x xs ih =>
        intro acc hacc
        rw [List.sum_cons] at hacc
        rw [List.foldlM_cons, add_eq_ok (by omega), ok_bind, ih _ (by omega), List.sum_cons,
          Nat.add_assoc]
  rw [sum, hfold 0 (by omega), Nat.zero_add]

theorem mapM_eq_ok {f : α → Checked β} {g : α → β} {xs : List α}
    (h : ∀ x ∈ xs, f x = .ok (g x)) : xs.mapM f = .ok (xs.map g) := by
  induction xs with
  | nil => rfl
  | cons x xs ih =>
      rw [List.mapM_cons, h x List.mem_cons_self, ok_bind,
        ih fun y hy => h y (List.mem_cons_of_mem _ hy), ok_bind]
      rfl

end TrojanServer.CheckedOps
