import Mathlib.Data.List.Infix
import TrojanServer.GrpcVarint
import TrojanServer.FrameDecoding

namespace TrojanServer.GrpcCodec

open TrojanServer.AsyncIo
open TrojanServer.FrameDecoding

def IsVarint (v : List UInt8) (n : Nat) : Prop :=
  ∃ value : UInt64, decodeVarint v = .ok (value, v.length) ∧ value.toNat = n

/-- A protobuf body: fields of a tag, a varint and as many bytes as it says. -/
inductive Fields : List UInt8 → List (List UInt8) → Prop
  | nil : Fields [] []
  | cons {v field body : List UInt8} {fields : List (List UInt8)}
      (hv : IsVarint v field.length) (hbody : Fields body fields) :
      Fields (0x0A :: (v ++ (field ++ body))) (field :: fields)

/-- An uncompressed frame with a declared length and a well-formed body. -/
def IsFrame (frame payload : List UInt8) : Prop :=
  ∃ body fields, Fields body fields ∧ body.length < 2 ^ 32 ∧
    frame = 0x00 :: (toBeBytes32 (UInt32.ofNat body.length) ++ body) ∧ payload = fields.flatten

/-- The parser as a decoder that consumes its buffer. -/
def decodeFrame (buf : List UInt8) : DecodeResult (List UInt8) × List UInt8 :=
  match parseGrpcMessageZerocopy buf with
  | (.ok (some (payload, consumed)), rest) => (.ok payload consumed, rest)
  | (.ok none, rest) => (.needMoreData, rest)
  | (.error e, rest) => (.invalid e.message, rest)

section Header

theorem fromBeBytes32_eq_iff (a b c d : UInt8) (value : UInt32) :
    fromBeBytes32 a b c d = value ↔ [a, b, c, d] = toBeBytes32 value := by
  have ha := a.toNat_lt
  have hb := b.toNat_lt
  have hc := c.toNat_lt
  have hd := d.toNat_lt
  have hvalue := value.toNat_lt
  simp only [fromBeBytes32, toBeBytes32, List.cons.injEq, and_true, ← UInt32.toNat_inj,
    ← UInt8.toNat_inj, UInt32.toNat_ofNat', UInt8.toNat_ofNat']
  omega

theorem length_toBeBytes32 (value : UInt32) : (toBeBytes32 value).length = 4 := rfl

/-- The five bytes in front of a body. -/
theorem exists_header {body : List UInt8} (hbody : body.length < 2 ^ 32) :
    ∃ a b c d, toBeBytes32 (UInt32.ofNat body.length) = [a, b, c, d] ∧
      (fromBeBytes32 a b c d).toNat = body.length := by
  refine ⟨_, _, _, _, rfl, ?_⟩
  rw [(fromBeBytes32_eq_iff ..).mpr rfl, UInt32.toNat_ofNat']
  exact Nat.mod_eq_of_lt hbody

theorem declaredFrameLen_append {buf : List UInt8} {n : Nat} (h : declaredFrameLen buf = some n)
    (more : List UInt8) : declaredFrameLen (buf ++ more) = some n := by
  unfold declaredFrameLen at h
  split at h
  · exact h
  · cases h

theorem five_le_length_of_isFrame {frame payload : List UInt8} (h : IsFrame frame payload) :
    5 ≤ frame.length := by
  obtain ⟨body, fields, -, -, rfl, -⟩ := h
  simp [length_toBeBytes32]

theorem ne_nil_of_isFrame {frame payload : List UInt8} (h : IsFrame frame payload) :
    frame ≠ [] := by
  obtain ⟨body, fields, -, -, rfl, -⟩ := h
  simp

theorem declaredFrameLen_of_isFrame {frame payload : List UInt8} (h : IsFrame frame payload)
    (rest : List UInt8) : declaredFrameLen (frame ++ rest) = some (frame.length - 5) := by
  obtain ⟨body, fields, -, hbody, rfl, -⟩ := h
  obtain ⟨a, b, c, d, hbytes, hlen⟩ := exists_header hbody
  rw [hbytes]
  simp [declaredFrameLen, hlen]

end Header

section Body

theorem fields_of_parseFieldsFrom {len fuel : Nat} {body : List UInt8} {fields : List (List UInt8)}
    (hfuel : body.length ≤ fuel) (h : parseFieldsFrom len fuel body = .ok fields) :
    Fields body fields := by
  induction fuel generalizing body fields with
  | zero =>
      obtain rfl := List.length_eq_zero_iff.mp (Nat.le_zero.mp hfuel)
      cases h
      exact .nil
  | succ fuel ih =>
      cases body with
      | nil =>
          cases h
          exact .nil
      | cons tag data =>
          simp only [parseFieldsFrom] at h
          split at h
          · cases h
          rename_i htag
          split at h
          · cases h
          rename_i value varintBytes hvarint
          split at h
          · cases h
          rename_i hlen
          split at h
          · cases h
          rename_i fields' hrest
          cases h
          obtain ⟨-, hle, htake⟩ := decodeVarint_take hvarint
          have hbody := ih (by simp at hfuel ⊢; omega) hrest
          obtain rfl : tag = 0x0A := not_not.mp htag
          have hdata : data = data.take varintBytes ++ ((data.drop varintBytes).take value.toNat ++
              data.drop (varintBytes + value.toNat)) := by
            rw [← List.drop_drop, List.take_append_drop, List.take_append_drop]
          have hfield : ((data.drop varintBytes).take value.toNat).length = value.toNat := by
            simp
            omega
          have hvarint : IsVarint (data.take varintBytes) ((data.drop varintBytes).take
              value.toNat).length := ⟨value, by simpa [hle] using htake, hfield.symm⟩
          have hcons := Fields.cons hvarint hbody
          rwa [← hdata] at hcons

theorem parseFieldsFrom_of_fields {len fuel : Nat} {body : List UInt8}
    {fields : List (List UInt8)} (h : Fields body fields) (hfuel : body.length ≤ fuel) :
    parseFieldsFrom len fuel body = .ok fields := by
  induction h generalizing fuel with
  | nil => cases fuel <;> rfl
  | @cons v field body fields hv hbody ih =>
      obtain ⟨value, hvarint, hvalue⟩ := hv
      obtain ⟨fuel, rfl⟩ : ∃ n, fuel = n + 1 := Nat.exists_eq_succ_of_ne_zero (by
        rintro rfl
        simp at hfuel)
      have hdata : ¬ (v ++ (field ++ body)).length < v.length + field.length := by
        simp only [List.length_append]
        omega
      have hdrop : (v ++ (field ++ body)).drop (v.length + field.length) = body := by
        rw [← List.drop_drop, List.drop_left, List.drop_left]
      have hrest : parseFieldsFrom len fuel body = .ok fields := ih (by simp at hfuel; omega)
      simp only [parseFieldsFrom, ne_eq, not_true_eq_false, if_false,
        decodeVarint_append hvarint, hvalue, hdata, hdrop, hrest, List.drop_left, List.take_left]

theorem parseFields_eq_ok_iff {body : List UInt8} {fields : List (List UInt8)} :
    parseFields body = .ok fields ↔ Fields body fields :=
  ⟨fields_of_parseFieldsFrom (Nat.le_refl _), fun h => parseFieldsFrom_of_fields h (Nat.le_refl _)⟩

end Body

section Parser

/-- What the parser can make of a buffer. -/
inductive ParseCase (buf : List UInt8) :
    Except IoError (Option (List UInt8 × Nat)) × List UInt8 → Prop
  | short (hshort : buf.length < 5) : ParseCase buf (.ok none, buf)
  | compressed {flag : UInt8} {rest : List UInt8} (hbuf : buf = flag :: rest) (hflag : flag ≠ 0)
      (hlen : 5 ≤ buf.length) :
      ParseCase buf (.error ⟨.invalidData, "compressed gRPC not supported"⟩, buf)
  | incomplete {a b c d : UInt8} {data : List UInt8} (hbuf : buf = 0 :: a :: b :: c :: d :: data)
      (hlen : data.length < (fromBeBytes32 a b c d).toNat) : ParseCase buf (.ok none, buf)
  | malformed {a b c d : UInt8} {data : List UInt8} {e : IoError}
      (hbuf : buf = 0 :: a :: b :: c :: d :: data)
      (hlen : (fromBeBytes32 a b c d).toNat ≤ data.length)
      (hbody : parseFields (data.take (fromBeBytes32 a b c d).toNat) = .error e) :
      ParseCase buf (.error e, buf)
  | frame {a b c d : UInt8} {data : List UInt8} {fields : List (List UInt8)}
      (hbuf : buf = 0 :: a :: b :: c :: d :: data)
      (hlen : (fromBeBytes32 a b c d).toNat ≤ data.length)
      (hbody : parseFields (data.take (fromBeBytes32 a b c d).toNat) = .ok fields) :
      ParseCase buf (.ok (some (fields.flatten, 5 + (fromBeBytes32 a b c d).toNat)),
        data.drop (fromBeBytes32 a b c d).toNat)

theorem parse_cases (buf : List UInt8) : ParseCase buf (parseGrpcMessageZerocopy buf) := by
  unfold parseGrpcMessageZerocopy
  split
  · rename_i flag a b c d data
    split
    · rename_i hflag
      exact .compressed rfl hflag (by simp)
    rename_i hflag
    obtain rfl : flag = 0 := not_not.mp hflag
    simp only [List.length_cons]
    split
    · exact .incomplete rfl (by omega)
    rename_i hlen
    split
    · rename_i e hbody
      exact .malformed rfl (by omega) hbody
    · rename_i fields hbody
      have hdrop : (0 :: a :: b :: c :: d :: data).drop (5 + (fromBeBytes32 a b c d).toNat) =
          data.drop (fromBeBytes32 a b c d).toNat := by
        rw [← List.drop_drop]
        rfl
      rw [hdrop]
      exact .frame rfl (by omega) hbody
  · rename_i hshort
    apply ParseCase.short
    rcases buf with _ | ⟨f, _ | ⟨a, _ | ⟨b, _ | ⟨c, _ | ⟨d, data⟩⟩⟩⟩⟩
    any_goals simp
    exact absurd rfl (hshort f a b c d data)

theorem parse_eq_some_iff {buf payload rest : List UInt8} {n : Nat} :
    parseGrpcMessageZerocopy buf = (.ok (some (payload, n)), rest) ↔
      ∃ frame, IsFrame frame payload ∧ n = frame.length ∧ buf = frame ++ rest := by
  constructor
  · intro h
    have hcase := parse_cases buf
    rw [h] at hcase
    cases hcase with
    | @frame a b c d data fields hbuf hlen hbody =>
        have htake : (data.take (fromBeBytes32 a b c d).toNat).length =
            (fromBeBytes32 a b c d).toNat := by simpa using hlen
        have hbytes := (fromBeBytes32_eq_iff a b c d (fromBeBytes32 a b c d)).mp rfl
        refine ⟨0 :: ([a, b, c, d] ++ data.take (fromBeBytes32 a b c d).toNat),
          ⟨_, fields, parseFields_eq_ok_iff.mp hbody, ?_, ?_, rfl⟩, ?_, ?_⟩
        · rw [htake]
          exact (fromBeBytes32 a b c d).toNat_lt
        · rw [htake, UInt32.ofNat_toNat, ← hbytes]
        · simp only [List.length_cons, List.length_append, htake, List.length_nil]
          omega
        · simp [hbuf]
  · rintro ⟨frame, ⟨body, fields, hbody, hsize, rfl, rfl⟩, rfl, rfl⟩
    obtain ⟨a, b, c, d, hbytes, hlen⟩ := exists_header hsize
    have htake : (body ++ rest).take body.length = body := List.take_left
    have hdrop : (0 :: a :: b :: c :: d :: (body ++ rest)).drop (5 + body.length) = rest := by
      rw [← List.drop_drop]
      exact List.drop_left
    have hshort : ¬ (0 :: a :: b :: c :: d :: (body ++ rest)).length < 5 + body.length := by
      simp
      omega
    rw [hbytes]
    simp only [List.cons_append, List.nil_append, parseGrpcMessageZerocopy, ne_eq,
      not_true_eq_false, if_false, hlen, hshort, htake, parseFields_eq_ok_iff.mpr hbody, hdrop]
    simp
    omega

theorem rest_of_parse_none {buf rest : List UInt8}
    (h : parseGrpcMessageZerocopy buf = (.ok none, rest)) : rest = buf := by
  have hcase := parse_cases buf
  rw [h] at hcase
  cases hcase <;> rfl

theorem decodeFrame_of_parse_none {buf rest : List UInt8}
    (h : parseGrpcMessageZerocopy buf = (.ok none, rest)) :
    decodeFrame buf = (.needMoreData, buf) := by
  unfold decodeFrame
  rw [h, rest_of_parse_none h]

theorem decodeFrame_eq_ok_iff {buf payload rest : List UInt8} {n : Nat} :
    decodeFrame buf = (.ok payload n, rest) ↔
      ∃ frame, IsFrame frame payload ∧ n = frame.length ∧ buf = frame ++ rest := by
  rw [← parse_eq_some_iff]
  unfold decodeFrame
  split <;> simp_all

theorem shrinks_decodeFrame : Shrinks decodeFrame := by
  intro buf payload n rest h
  obtain ⟨frame, hframe, -, rfl⟩ := decodeFrame_eq_ok_iff.mp h
  have := five_le_length_of_isFrame hframe
  simp only [List.length_append]
  omega

theorem parse_append_of_error {buf rest : List UInt8} {e : IoError}
    (h : parseGrpcMessageZerocopy buf = (.error e, rest)) (more : List UInt8) :
    parseGrpcMessageZerocopy (buf ++ more) = (.error e, rest ++ more) := by
  have hcase := parse_cases buf
  rw [h] at hcase
  cases hcase with
  | @compressed flag rest hbuf hflag hlen =>
      obtain ⟨a, b, c, d, data, rfl⟩ : ∃ a b c d data, rest = a :: b :: c :: d :: data := by
        rcases rest with _ | ⟨a, _ | ⟨b, _ | ⟨c, _ | ⟨d, data⟩⟩⟩⟩
        any_goals simp [hbuf] at hlen
        exact ⟨a, b, c, d, data, rfl⟩
      simp [hbuf, parseGrpcMessageZerocopy, hflag]
  | @malformed a b c d data _ hbuf hlen hbody =>
      have htake : (data ++ more).take (fromBeBytes32 a b c d).toNat =
          data.take (fromBeBytes32 a b c d).toNat := List.take_append_of_le_length hlen
      have hlong : ¬ (0 :: a :: b :: c :: d :: (data ++ more)).length <
          5 + (fromBeBytes32 a b c d).toNat := by
        simp
        omega
      simp only [hbuf, List.cons_append, parseGrpcMessageZerocopy, ne_eq, not_true_eq_false,
        if_false, hlong, htake, hbody]

end Parser

section Encoder

theorem isFrame_encodeGrpcMessage {payload : List UInt8} (h : payload.length + 11 < 2 ^ 32) :
    IsFrame (encodeGrpcMessage payload) payload := by
  have hcount : (UInt64.ofNat payload.length).toNat = payload.length := by
    rw [UInt64.toNat_ofNat']
    omega
  have hvarint := decodeVarint_encodeVarint_append (UInt64.ofNat payload.length) []
  rw [List.append_nil] at hvarint
  have hprefixed : IsVarint (encodeVarint (UInt64.ofNat payload.length)) payload.length :=
    ⟨_, hvarint, hcount⟩
  have hbody := Fields.cons hprefixed .nil
  have hlength := length_encodeVarint (UInt64.ofNat payload.length)
  have hle := varintLen_le (UInt64.ofNat payload.length)
  refine ⟨_, _, hbody, ?_, ?_, by simp⟩
  · simp only [List.length_cons, List.length_append, hlength, List.length_nil]
    omega
  · simp only [encodeGrpcMessage, List.append_nil, List.length_cons, List.length_append, hlength]
    rw [show 1 + varintLen (UInt64.ofNat payload.length) + payload.length =
      varintLen (UInt64.ofNat payload.length) + payload.length + 1 by omega]

/-- A sequence of encoded messages is taken apart again by the parser. -/
theorem drain_encodeGrpcMessage {payloads : List (List UInt8)}
    (h : ∀ payload ∈ payloads, payload.length + 11 < 2 ^ 32) :
    drain decodeFrame (payloads.flatMap encodeGrpcMessage) = ⟨payloads, [], none⟩ := by
  have hdrain := drain_flatMap_append shrinks_decodeFrame encodeGrpcMessage payloads [] ?_
  · simpa [drain, drainFuel] using hdrain
  · rintro before payload after rfl
    apply decodeFrame_eq_ok_iff.mpr
    exact ⟨_, isFrame_encodeGrpcMessage (h payload (by simp)), rfl, rfl⟩

end Encoder

end TrojanServer.GrpcCodec
