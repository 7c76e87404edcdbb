import Mathlib.Data.List.Induction
import TrojanServer.StepMachine

namespace TrojanServer.Streaks

open TrojanServer.StepMachine

variable {α : Type*} {Mark : List α → α → Prop} {Gap : α → Prop} {h : List α} {e : α} {n k : Nat}

/-- The history ends in at least this many events that count, with only skipped ones among
and after them. -/
inductive Streak (Mark : List α → α → Prop) (Gap : α → Prop) : List α → Nat → Prop
  | none (h : List α) : Streak Mark Gap h 0
  | gap {h : List α} {e : α} {k : Nat} (hstreak : Streak Mark Gap h k) (hgap : Gap e) :
      Streak Mark Gap (h ++ [e]) k
  | mark {h : List α} {e : α} {k : Nat} (hstreak : Streak Mark Gap h k) (hmark : Mark h e) :
      Streak Mark Gap (h ++ [e]) (k + 1)

theorem not_streak_nil : ¬ Streak Mark Gap [] (k + 1) := by
  intro hstreak
  generalize hnil : ([] : List α) = h at hstreak
  cases hstreak <;> simp at hnil

theorem streak_snoc_iff :
    Streak Mark Gap (h ++ [e]) (k + 1) ↔
      (Mark h e ∧ Streak Mark Gap h k) ∨ (Gap e ∧ Streak Mark Gap h (k + 1)) := by
  constructor
  · intro hstreak
    generalize hsnoc : h ++ [e] = h' at hstreak
    cases hstreak with
    | gap hstreak hgap =>
        obtain ⟨rfl, heq⟩ := List.append_inj' hsnoc rfl
        cases heq
        exact .inr ⟨hgap, hstreak⟩
    | mark hstreak hmark =>
        obtain ⟨rfl, heq⟩ := List.append_inj' hsnoc rfl
        cases heq
        exact .inl ⟨hmark, hstreak⟩
  · rintro (⟨hmark, hstreak⟩ | ⟨hgap, hstreak⟩)
    · exact hstreak.mark hmark
    · exact hstreak.gap hgap

/-- The last event that counts, in front of the skipped ones. -/
theorem streak_succ_iff :
    Streak Mark Gap h (k + 1) ↔
      ∃ before e after, h = before ++ e :: after ∧ Mark before e ∧ Streak Mark Gap before k ∧
        ∀ x ∈ after, Gap x := by
  induction h using List.reverseRecOn with
  | nil => simp [not_streak_nil]
  | append_singleton h e ih =>
      rw [streak_snoc_iff, ih]
      constructor
      · rintro (⟨hmark, hstreak⟩ | ⟨hgap, before, x, after, rfl, hmark, hstreak, hafter⟩)
        · exact ⟨h, e, [], rfl, hmark, hstreak, by simp⟩
        · refine ⟨before, x, after ++ [e], by simp, hmark, hstreak, ?_⟩
          intro y hy
          rcases List.mem_append.mp hy with hy | hy
          · exact hafter y hy
          · rwa [List.mem_singleton.mp hy]
      · rintro ⟨before, x, after, hsplit, hmark, hstreak, hafter⟩
        rcases snoc_split hsplit with ⟨rfl, rfl, -⟩ | ⟨after, rfl, rfl⟩
        · exact .inl ⟨hmark, hstreak⟩
        · exact .inr ⟨hafter e (by simp), before, x, after, rfl, hmark, hstreak,
            fun y hy => hafter y (by simp [hy])⟩

/-- A counter that is the length of the longest streak. -/
def Counts (Mark : List α → α → Prop) (Gap : α → Prop) (h : List α) (n : Nat) : Prop :=
  ∀ k, Streak Mark Gap h k ↔ k ≤ n

theorem counts_nil : Counts Mark Gap [] 0 := by
  intro k
  cases k with
  | zero => exact iff_of_true (.none _) (Nat.le_refl 0)
  | succ k => exact iff_of_false not_streak_nil (by omega)

theorem Counts.mark (hcounts : Counts Mark Gap h n) (hmark : Mark h e) :
    Counts Mark Gap (h ++ [e]) (n + 1) := by
  intro k
  cases k with
  | zero => exact iff_of_true (.none _) (Nat.zero_le _)
  | succ k =>
      rw [streak_snoc_iff, hcounts k, hcounts (k + 1)]
      constructor
      · rintro (⟨_, hle⟩ | ⟨_, hle⟩) <;> omega
      · intro hle
        exact .inl ⟨hmark, by omega⟩

theorem Counts.gap (hcounts : Counts Mark Gap h n) (hmark : ¬ Mark h e) (hgap : Gap e) :
    Counts Mark Gap (h ++ [e]) n := by
  intro k
  cases k with
  | zero => exact iff_of_true (.none _) (Nat.zero_le _)
  | succ k => simp [streak_snoc_iff, hmark, hgap, hcounts (k + 1)]

theorem counts_reset (hmark : ¬ Mark h e) (hgap : ¬ Gap e) : Counts Mark Gap (h ++ [e]) 0 := by
  intro k
  cases k with
  | zero => exact iff_of_true (.none _) (Nat.zero_le _)
  | succ k => simp [streak_snoc_iff, hmark, hgap]

/-- The last event of a kind is found in one way only. -/
theorem last_split_unique {p : α → Prop} {before before' after after' : List α} {e e' : α}
    (h : before ++ e :: after = before' ++ e' :: after') (he : p e) (he' : p e')
    (hafter : ∀ x ∈ after, ¬ p x) (hafter' : ∀ x ∈ after', ¬ p x) :
    before = before' ∧ e = e' ∧ after = after' := by
  rcases List.append_eq_append_iff.mp h with ⟨more, hbefore, htail⟩ | ⟨more, hbefore, htail⟩
  · cases more with
    | nil =>
        cases htail
        exact ⟨by simpa using hbefore.symm, rfl, rfl⟩
    | cons x more =>
        cases htail
        exact absurd he' (hafter e' (by simp))
  · cases more with
    | nil =>
        cases htail
        exact ⟨by simpa using hbefore, rfl, rfl⟩
    | cons x more =>
        cases htail
        exact absurd he (hafter' e (by simp))

end TrojanServer.Streaks
