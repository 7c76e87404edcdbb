import TrojanServer.CheckedOps

namespace TrojanServer.StrSlice

open TrojanServer.CheckedOps

def byteLen (text : List Char) : Nat := (text.map Char.utf8Size).sum

/-- What stands before the offset, and what after it. -/
def splitAtByte : List Char → Nat → Checked (List Char × List Char)
  | text, 0 => .ok ([], text)
  | [], _ + 1 => .error .outOfRange
  | c :: text, offset + 1 =>
      if c.utf8Size ≤ offset + 1 then do
        let (head, tail) ← splitAtByte text (offset + 1 - c.utf8Size)
        .ok (c :: head, tail)
      else .error .outOfRange

/-- The text from `start` up to but not including `finish`. -/
def substring (text : List Char) (start finish : Nat) : Checked (List Char) :=
  if start ≤ finish then do
    let (head, _) ← splitAtByte text finish
    let (_, middle) ← splitAtByte head start
    .ok middle
  else .error .outOfRange

/-- The offset of the last occurrence of a character. -/
def rfind (pattern : Char) : List Char → Option Nat
  | [] => none
  | c :: text =>
      match rfind pattern text with
      | some offset => some (c.utf8Size + offset)
      | none => if c = pattern then some 0 else none

variable {pattern : Char}

@[simp] theorem byteLen_nil : byteLen [] = 0 := rfl

@[simp] theorem byteLen_cons (c : Char) (text : List Char) :
    byteLen (c :: text) = c.utf8Size + byteLen text := rfl

@[simp] theorem byteLen_append (text text' : List Char) :
    byteLen (text ++ text') = byteLen text + byteLen text' := by
  simp [byteLen]

theorem splitAtByte_append (head tail : List Char) :
    splitAtByte (head ++ tail) (byteLen head) = .ok (head, tail) := by
  induction head with
  | nil => rw [List.nil_append, byteLen_nil, splitAtByte]
  | cons c head ih =>
      have hwidth := c.utf8Size_pos
      obtain ⟨offset, hoffset⟩ : ∃ offset, c.utf8Size + byteLen head = offset + 1 :=
        Nat.exists_eq_add_one.mpr (by omega)
      rw [byteLen_cons, hoffset, List.cons_append, splitAtByte, if_pos (by omega), ← hoffset,
        Nat.add_sub_cancel_left, ih]
      rfl

theorem substring_append (before middle after : List Char) :
    substring (before ++ middle ++ after) (byteLen before) (byteLen before + byteLen middle) =
      .ok middle := by
  rw [substring, if_pos (Nat.le_add_right _ _), ← byteLen_append, splitAtByte_append, ok_bind]
  simp only [splitAtByte_append, ok_bind]

theorem rfind_eq_none {text : List Char} (h : pattern ∉ text) : rfind pattern text = none := by
  induction text with
  | nil => rfl
  | cons c text ih =>
      rw [List.mem_cons, not_or] at h
      rw [rfind, ih h.2]
      simp only [if_neg (Ne.symm h.1)]

theorem rfind_append (before : List Char) {after : List Char} (h : pattern ∉ after) :
    rfind pattern (before ++ pattern :: after) = some (byteLen before) := by
  induction before with
  | nil =>
      rw [List.nil_append, rfind, rfind_eq_none h]
      simp
  | cons c before ih => rw [List.cons_append, rfind, ih, byteLen_cons]

/-- A text is free of a character, or is cut at its last occurrence. -/
theorem last_occurrence (pattern : Char) (text : List Char) :
    pattern ∉ text ∨ ∃ before after, text = before ++ pattern :: after ∧ pattern ∉ after := by
  induction text with
  | nil => exact .inl (by simp)
  | cons c text ih =>
      rcases ih with hnone | ⟨before, after, rfl, hafter⟩
      · by_cases hc : c = pattern
        · exact .inr ⟨[], text, by rw [hc, List.nil_append], hnone⟩
        · exact .inl (by simp [Ne.symm hc, hnone])
      · exact .inr ⟨c :: before, after, rfl, hafter⟩

end TrojanServer.StrSlice
