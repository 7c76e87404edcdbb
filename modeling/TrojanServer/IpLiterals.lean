import TrojanServer.IpText

namespace TrojanServer.IpText

open TrojanServer.FrameDecoding

def IsDecimal (b : UInt8) : Prop := 48 ≤ b ∧ b ≤ 57

def IsHexadecimal (b : UInt8) : Prop := IsDecimal b ∨ (97 ≤ b ∧ b ≤ 102) ∨ (65 ≤ b ∧ b ≤ 70)

/-- A byte a reader of `std::net` takes. -/
def Textual (b : UInt8) : Prop := IsHexadecimal b ∨ b = 46 ∨ b = 58

/-- What was read between an input and what is left of it. -/
def Reads (input rest : List UInt8) : Prop := ∃ used, input = used ++ rest ∧ ∀ b ∈ used, Textual b

variable {input rest rest' : List UInt8}

theorem Reads.refl (input : List UInt8) : Reads input input := ⟨[], rfl, by simp⟩

theorem Reads.trans (h : Reads input rest) (h' : Reads rest rest') : Reads input rest' := by
  obtain ⟨used, rfl, hused⟩ := h
  obtain ⟨used', rfl, hused'⟩ := h'
  refine ⟨used ++ used', by simp, ?_⟩
  intro b hb
  rcases List.mem_append.mp hb with hb | hb
  · exact hused b hb
  · exact hused' b hb

theorem Reads.cons {b : UInt8} (hb : Textual b) (h : Reads input rest) :
    Reads (b :: input) rest :=
  Reads.trans ⟨[b], rfl, by simpa using hb⟩ h

theorem isHexadecimal_of_toDigit {radix digit : Nat} {b : UInt8}
    (h : toDigit radix b = some digit) : IsHexadecimal b := by
  obtain ⟨hdigit, -⟩ := Option.filter_eq_some_iff.mp h
  split at hdigit
  · rename_i hdecimal
    exact .inl hdecimal
  split at hdigit
  · rename_i hlower
    exact .inr (.inl hlower)
  split at hdigit
  · rename_i hupper
    exact .inr (.inr hupper)
  · cases hdigit

theorem reads_readDigits {radix maxDigits limit result count v c : Nat}
    (h : readDigits radix maxDigits limit result count input = some (v, c, rest)) :
    Reads input rest := by
  induction input generalizing result count with
  | nil =>
      cases h
      exact .refl _
  | cons b input ih =>
      simp only [readDigits] at h
      split at h
      · cases h
        exact .refl _
      · rename_i hdigit
        split at h
        · cases h
        · exact (ih h).cons (.inl (isHexadecimal_of_toDigit hdigit))

theorem reads_readNumber {radix maxDigits limit v : Nat} {allowZeroPrefix : Bool}
    (h : readNumber radix maxDigits limit allowZeroPrefix input = some (v, rest)) :
    Reads input rest := by
  simp only [readNumber] at h
  split at h
  · cases h
  · rename_i hdigits
    split at h
    · cases h
    split at h
    · cases h
    · cases h
      exact reads_readDigits hdigits

theorem reads_readSeparator {α : Type} {sep : UInt8} (hsep : sep = 46 ∨ sep = 58) {index : Nat}
    {inner : List UInt8 → Option (α × List UInt8)} {v : α}
    (hinner : ∀ {input rest}, inner input = some (v, rest) → Reads input rest)
    (h : readSeparator sep index inner input = some (v, rest)) : Reads input rest := by
  unfold readSeparator at h
  split at h
  · cases input with
    | nil => cases h
    | cons b input =>
        simp only at h
        split at h
        · rename_i hb
          exact (hinner h).cons (.inr (hb ▸ hsep))
        · cases h
  · exact hinner h

theorem reads_readOctets {n index : Nat} {ip : Octets n}
    (h : readOctets n index input = some (ip, rest)) : Reads input rest := by
  induction n generalizing index input with
  | zero =>
      cases h
      exact .refl _
  | succ n ih =>
      simp only [readOctets] at h
      split at h
      · cases h
      · rename_i hnumber
        obtain ⟨⟨ip', _⟩, hoctets, heq⟩ := Option.map_eq_some_iff.mp h
        cases heq
        exact (reads_readSeparator (.inl rfl) reads_readNumber hnumber).trans (ih hoctets)

theorem reads_readGroups (n index : Nat) (input : List UInt8) :
    Reads input (readGroups n index input).2.2 := by
  induction n generalizing index input with
  | zero => exact .refl _
  | succ n ih =>
      simp only [readGroups]
      split
      · rename_i hv4
        split at hv4
        · exact reads_readSeparator (.inr rfl) reads_readOctets hv4
        · cases hv4
      · split
        · exact .refl _
        · rename_i hnumber
          exact (reads_readSeparator (.inr rfl) reads_readNumber hnumber).trans (ih _ _)

theorem reads_readIpv6Addr {ip : Octets 16} (h : readIpv6Addr input = some (ip, rest)) :
    Reads input rest := by
  have hhead := reads_readGroups 8 0 input
  simp only [readIpv6Addr] at h
  split at h
  · cases h
    exact hhead
  split at h
  · cases h
  · split at h
    · rename_i hrest
      cases h
      rw [hrest] at hhead
      exact hhead.trans ((Reads.cons (.inr (.inr rfl)) (.cons (.inr (.inr rfl))
        (reads_readGroups _ _ _))))
    · cases h

theorem textual_of_parseIpAddr {text : String} {ip : IpAddr} (h : parseIpAddr text = some ip) :
    ∀ b ∈ asBytes text, Textual b := by
  have hall : Reads (asBytes text) [] := by
    simp only [parseIpAddr] at h
    split at h
    · rename_i hv4
      split at h
      · rename_i hrest
        exact hrest ▸ reads_readOctets hv4
      · cases h
    · split at h
      · rename_i hv6
        split at h
        · rename_i hrest
          exact hrest ▸ reads_readIpv6Addr hv6
        · cases h
      · cases h
  obtain ⟨used, hused, htextual⟩ := hall
  rwa [hused, List.append_nil]

end TrojanServer.IpText
