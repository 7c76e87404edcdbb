import Mathlib.Data.List.Basic

namespace TrojanServer.FifoTransfer

variable {α : Type*} {queue queue₁ queue₂ input output input₁ output₁ : List α}

/-- Taking `input` in and handing `output` out turns `queue` into `queue₁`:
nothing is lost, duplicated or reordered. -/
def Transfer (queue input output queue₁ : List α) : Prop :=
  output ++ queue₁ = queue ++ input

theorem Transfer.refl (queue : List α) : Transfer queue [] [] queue := by
  simp [Transfer]

theorem Transfer.trans (h : Transfer queue input output queue₁)
    (h₁ : Transfer queue₁ input₁ output₁ queue₂) :
    Transfer queue (input ++ input₁) (output ++ output₁) queue₂ := by
  unfold Transfer at *
  calc
    (output ++ output₁) ++ queue₂ = output ++ (output₁ ++ queue₂) := by
      rw [List.append_assoc]
    _ = (output ++ queue₁) ++ input₁ := by rw [h₁, List.append_assoc]
    _ = queue ++ (input ++ input₁) := by rw [h, List.append_assoc]

theorem Transfer.push (queue input : List α) :
    Transfer queue input [] (queue ++ input) := by
  simp [Transfer]

theorem Transfer.pop (queue : List α) (n : Nat) :
    Transfer queue [] (queue.take n) (queue.drop n) := by
  simp [Transfer]

theorem Transfer.drained (h : Transfer queue input output []) :
    output = queue ++ input := by
  simpa [Transfer] using h

end TrojanServer.FifoTransfer
