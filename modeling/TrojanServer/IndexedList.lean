import Mathlib.Algebra.GroupWithZero.Nat
import Mathlib.Data.Finset.Card

namespace TrojanServer.IndexedList

variable {α : Type*} {l : List α} {a b c : α} {i j : Nat}

theorem getElem?_snoc : (l ++ [a])[i]? = some b ↔ l[i]? = some b ∨ (i = l.length ∧ b = a) := by
  grind

theorem getElem?_set_of_some (h : l[i]? = some c) :
    (l.set i a)[j]? = some b ↔ (j = i ∧ b = a) ∨ (j ≠ i ∧ l[j]? = some b) := by
  grind

theorem sum_map_set_add (f : α → Nat) (h : l[i]? = some a) :
    ((l.set i b).map f).sum + f a = (l.map f).sum + f b := by
  induction l generalizing i with
  | nil => simp at h
  | cons x l ih =>
      cases i with
      | zero =>
          obtain rfl : x = a := by simpa using h
          simp only [List.set_cons_zero, List.map_cons, List.sum_cons]
          omega
      | succ i =>
          have htail := ih (by simpa using h)
          simp only [List.set_cons_succ, List.map_cons, List.sum_cons]
          omega

section Count

variable {p : α → Bool}

theorem countP_eq_sum (p : α → Bool) (l : List α) :
    l.countP p = (l.map fun a => (p a).toNat).sum := by
  induction l with
  | nil => rfl
  | cons a l ih =>
      rw [List.countP_cons, ih, List.map_cons, List.sum_cons, Nat.add_comm]
      cases p a <;> rfl

/-- Setting an entry moves the count by what the two entries are worth. -/
theorem countP_set_add (h : l[i]? = some a) :
    (l.set i b).countP p + (p a).toNat = l.countP p + (p b).toNat := by
  rw [countP_eq_sum, countP_eq_sum]
  exact sum_map_set_add (fun a => (p a).toNat) h

theorem card_filter_range_countP (p : α → Bool) (l : List α) :
    ((Finset.range l.length).filter fun i => (l[i]?).any p = true).card = l.countP p := by
  induction l using List.reverseRecOn with
  | nil => simp
  | append_singleton l a ih =>
      have hold : ((Finset.range l.length).filter fun i => ((l ++ [a])[i]?).any p = true) =
          (Finset.range l.length).filter fun i => (l[i]?).any p = true := by
        refine Finset.filter_congr fun i hi => ?_
        rw [List.getElem?_append_left (Finset.mem_range.mp hi)]
      rw [List.length_append, List.length_singleton, Finset.range_add_one, Finset.filter_insert,
        hold, List.countP_append, ← ih]
      by_cases ha : p a = true
      · simp [ha]
      · simp [ha]

/-- A set of places of a list is as large as the number of entries it marks. -/
theorem card_eq_countP {places : Finset Nat}
    (h : ∀ i, i ∈ places ↔ (l[i]?).any p = true) : places.card = l.countP p := by
  rw [← card_filter_range_countP]
  congr 1
  ext i
  rw [h, Finset.mem_filter, Finset.mem_range]
  refine (and_iff_right_of_imp fun hmarked => ?_).symm
  obtain ⟨a, ha, -⟩ := Option.any_eq_true _ _ |>.mp hmarked
  exact (List.getElem?_eq_some_iff.mp ha).1

theorem countP_le_card {places : Finset Nat}
    (h : ∀ i, (l[i]?).any p = true → i ∈ places) : l.countP p ≤ places.card := by
  rw [← card_filter_range_countP]
  refine Finset.card_le_card fun i hi => h i ?_
  exact (Finset.mem_filter.mp hi).2

end Count

end TrojanServer.IndexedList
