import Mathlib.Data.List.Infix
import TrojanServer.FrameDecoding

namespace TrojanServer.FrameDecoding

variable {α β : Type*}

structure Stable (decode : List β → DecodeResult α × List β) : Prop where
  verdict : ∀ {buf rest : List β} {result : DecodeResult α}, decode buf = (result, rest) →
    result ≠ .needMoreData → ∀ more, decode (buf ++ more) = (result, rest ++ more)
  waiting : ∀ {buf rest : List β}, decode buf = (.needMoreData, rest) → rest = buf

variable {decode : List β → DecodeResult α × List β}

theorem drain_invalid {buf rest : List β} {message : String} (hne : buf ≠ [])
    (hdecode : decode buf = (.invalid message, rest)) :
    drain decode buf = ⟨[], rest, some message⟩ := by
  cases buf with
  | nil => exact absurd rfl hne
  | cons b buf => simp [drain, drainFuel, hdecode]

/-- The four ways a drain loop starts. -/
inductive DrainCase (decode : List β → DecodeResult α × List β) (buf : List β) : Prop
  | empty (hempty : buf = [])
  | ok {value : α} {consumed : Nat} {rest : List β}
      (hdecode : decode buf = (.ok value consumed, rest))
  | waiting {rest : List β} (hdecode : decode buf = (.needMoreData, rest))
  | invalid {message : String} {rest : List β} (hne : buf ≠ [])
      (hdecode : decode buf = (.invalid message, rest))

theorem drain_cases (decode : List β → DecodeResult α × List β) (buf : List β) :
    DrainCase decode buf := by
  rcases eq_or_ne buf [] with hempty | hne
  · exact .empty hempty
  · rcases hdecode : decode buf with ⟨_ | _ | _, rest⟩
    · exact .ok hdecode
    · exact .waiting hdecode
    · exact .invalid hne hdecode

/-- The loop over a longer buffer stops where it stopped, or goes on from what it
had left. -/
theorem drain_append (hshrinks : Shrinks decode) (hstable : Stable decode)
    (buf more : List β) : drain decode (buf ++ more) =
      match (drain decode buf).error with
      | some message => ⟨(drain decode buf).values, (drain decode buf).rest ++ more, some message⟩
      | none =>
          let r := drain decode ((drain decode buf).rest ++ more)
          ⟨(drain decode buf).values ++ r.values, r.rest, r.error⟩ := by
  induction hlen : buf.length using Nat.strong_induction_on generalizing buf with
  | _ n ih =>
      subst hlen
      rcases drain_cases decode buf with rfl | hdecode | hdecode | ⟨hne, hdecode⟩
      · rfl
      · have hrest := ih _ (hshrinks _ _ _ _ hdecode) _ rfl
        rw [drain_ok hshrinks hdecode,
          drain_ok hshrinks (hstable.verdict hdecode (by simp) more), hrest]
        simp only
        split <;> simp
      · have hsame := hstable.waiting hdecode
        subst hsame
        simp [drain_needMoreData hdecode]
      · rw [drain_invalid hne hdecode,
          drain_invalid (by simp [hne]) (hstable.verdict hdecode (by simp) more)]

theorem drain_append_of_error (hshrinks : Shrinks decode) (hstable : Stable decode)
    {buf : List β} {message : String} (herror : (drain decode buf).error = some message)
    (more : List β) : (drain decode (buf ++ more)).values = (drain decode buf).values ∧
      (drain decode (buf ++ more)).error = some message := by
  rw [drain_append hshrinks hstable, herror]
  exact ⟨rfl, rfl⟩

theorem drain_append_of_no_error (hshrinks : Shrinks decode) (hstable : Stable decode)
    {buf : List β} (herror : (drain decode buf).error = none) (more : List β) :
    drain decode (buf ++ more) =
      ⟨(drain decode buf).values ++ (drain decode ((drain decode buf).rest ++ more)).values,
        (drain decode ((drain decode buf).rest ++ more)).rest,
        (drain decode ((drain decode buf).rest ++ more)).error⟩ := by
  rw [drain_append hshrinks hstable, herror]

/-- More bytes add values and take none back. -/
theorem drain_values_isPrefix (hshrinks : Shrinks decode) (hstable : Stable decode)
    {buf stream : List β} (h : buf <+: stream) :
    (drain decode buf).values <+: (drain decode stream).values := by
  obtain ⟨more, rfl⟩ := h
  cases herror : (drain decode buf).error with
  | some message =>
      exact ⟨[], by rw [List.append_nil, (drain_append_of_error hshrinks hstable herror more).1]⟩
  | none =>
      rw [drain_append_of_no_error hshrinks hstable herror more]
      exact List.prefix_append _ _

/-- No part of a frame is taken for a frame, nor rejected. -/
theorem Stable.waiting_of_part (hstable : Stable decode) {part more : List β} {value : α}
    {consumed : Nat} (hframe : decode (part ++ more) = (.ok value consumed, []))
    (hmore : more ≠ []) : decode part = (.needMoreData, part) := by
  rcases hdecode : decode part with ⟨_ | _ | _, rest⟩
  · have hverdict := hstable.verdict hdecode (by simp) more
    rw [hframe] at hverdict
    simp only [Prod.mk.injEq, List.nil_eq, List.append_eq_nil_iff] at hverdict
    exact absurd hverdict.2.2 hmore
  · rw [hstable.waiting hdecode]
  · have hverdict := hstable.verdict hdecode (by simp) more
    rw [hframe] at hverdict
    cases hverdict

end TrojanServer.FrameDecoding
