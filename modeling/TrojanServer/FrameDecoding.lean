import Mathlib.Data.List.Basic
import Mathlib.Data.Vector.Basic

/-!
Decoding of frames from a byte buffer.  A decoder either returns a value with
the number of bytes it took, asks for more data, or rejects the buffer; a
decoder that owns its buffer also says what is left in it.
-/

namespace TrojanServer.FrameDecoding

inductive DecodeResult (α : Type*) where
  | ok (value : α) (consumed : Nat)
  | needMoreData
  | invalid (message : String)
  deriving Repr, DecidableEq

section Octets

abbrev Octets (n : Nat) := List.Vector UInt8 n

def slice (buf : List UInt8) (start n : Nat) (h : start + n ≤ buf.length) : Octets n :=
  ⟨(buf.drop start).take n, by simp; omega⟩

def toBeBytes (value : UInt16) : List UInt8 :=
  [UInt8.ofNat (value.toNat / 256), UInt8.ofNat (value.toNat % 256)]

def fromBeBytes (high low : UInt8) : UInt16 :=
  UInt16.ofNat (high.toNat * 256 + low.toNat)

def readU16 (buf : List UInt8) (i : Nat) (h : i + 2 ≤ buf.length) : UInt16 :=
  fromBeBytes buf[i] buf[i + 1]

@[simp] theorem length_toBeBytes (value : UInt16) : (toBeBytes value).length = 2 := rfl

theorem fromBeBytes_eq_iff (high low : UInt8) (value : UInt16) :
    fromBeBytes high low = value ↔ [high, low] = toBeBytes value := by
  have hhigh := high.toNat_lt
  have hlow := low.toNat_lt
  have hvalue := value.toNat_lt
  simp only [fromBeBytes, toBeBytes, List.cons.injEq, and_true, ← UInt16.toNat_inj,
    ← UInt8.toNat_inj, UInt16.toNat_ofNat', UInt8.toNat_ofNat']
  omega

theorem take_two_drop {buf : List UInt8} {i : Nat} (h : i + 2 ≤ buf.length) :
    (buf.drop i).take 2 = [buf[i], buf[i + 1]] := by
  rw [List.drop_eq_getElem_cons (by omega), List.drop_eq_getElem_cons (by omega)]
  rfl

theorem readU16_eq_iff {buf : List UInt8} {i : Nat} (h : i + 2 ≤ buf.length)
    (value : UInt16) :
    readU16 buf i h = value ↔ (buf.drop i).take 2 = toBeBytes value := by
  rw [readU16, fromBeBytes_eq_iff, take_two_drop h]

theorem readU16_append (before : List UInt8) (value : UInt16) (rest : List UInt8) {i : Nat}
    (hi : before.length = i) (h : i + 2 ≤ (before ++ (toBeBytes value ++ rest)).length) :
    readU16 (before ++ (toBeBytes value ++ rest)) i h = value := by
  rw [readU16_eq_iff, ← hi, List.drop_left]
  rfl

theorem readU16_append_left {buf : List UInt8} {i : Nat} (h : i + 2 ≤ buf.length)
    (more : List UInt8) (h' : i + 2 ≤ (buf ++ more).length) :
    readU16 (buf ++ more) i h' = readU16 buf i h := by
  rw [readU16_eq_iff, List.drop_append_of_le_length (by omega),
    List.take_append_of_le_length (by simp; omega)]
  exact (readU16_eq_iff h _).mp rfl

theorem slice_append (before : List UInt8) {n : Nat} (value : Octets n) (rest : List UInt8)
    {start : Nat} (hstart : before.length = start)
    (h : start + n ≤ (before ++ (value.toList ++ rest)).length) :
    slice (before ++ (value.toList ++ rest)) start n h = value := by
  apply Subtype.ext
  change ((before ++ (value.toList ++ rest)).drop start).take n = value.toList
  rw [← hstart, List.drop_left]
  exact List.take_left' value.toList_length

end Octets

section Utf8

def asBytes (text : String) : List UInt8 := text.toByteArray.data.toList

/-- Rust's `std::str::from_utf8`, without the position of the error. -/
def fromUtf8 (bytes : List UInt8) : Option String := String.fromUTF8? ⟨bytes.toArray⟩

theorem fromUtf8_eq_some_iff {bytes : List UInt8} {text : String} :
    fromUtf8 bytes = some text ↔ bytes = asBytes text := by
  have hbytes : (⟨bytes.toArray⟩ : ByteArray) = text.toByteArray ↔ bytes = asBytes text := by
    constructor
    · intro h
      simp [asBytes, ← h]
    · rintro rfl
      rfl
  rw [← hbytes, fromUtf8, String.fromUTF8?]
  constructor
  · intro h
    split at h
    · simp only [Option.some.injEq] at h
      rw [← h]
      rfl
    · cases h
  · intro h
    have hvalid : (⟨bytes.toArray⟩ : ByteArray).IsValidUTF8 := by
      rw [h]
      exact text.isValidUTF8
    rw [dif_pos hvalid, Option.some.injEq]
    exact String.toByteArray_inj.mp h

theorem length_asBytes (text : String) : (asBytes text).length = text.utf8ByteSize := rfl

end Utf8

section Drain

variable {α β : Type*}

structure Drained (α β : Type*) where
  values : List α
  rest : List β
  error : Option String
  deriving DecidableEq

def drainFuel (decode : List β → DecodeResult α × List β) : Nat → List β → Drained α β
  | 0, buf => ⟨[], buf, none⟩
  | fuel + 1, buf =>
      if buf.isEmpty then ⟨[], buf, none⟩
      else
        match decode buf with
        | (.ok value _, rest) =>
            let r := drainFuel decode fuel rest
            ⟨value :: r.values, r.rest, r.error⟩
        | (.needMoreData, rest) => ⟨[], rest, none⟩
        | (.invalid message, rest) => ⟨[], rest, some message⟩

/-- The loop itself: a frame takes at least one byte, so the length of the
buffer is fuel enough. -/
def drain (decode : List β → DecodeResult α × List β) (buf : List β) : Drained α β :=
  drainFuel decode buf.length buf

def Shrinks (decode : List β → DecodeResult α × List β) : Prop :=
  ∀ buf value consumed rest, decode buf = (.ok value consumed, rest) →
    rest.length < buf.length

variable {decode : List β → DecodeResult α × List β}

theorem drainFuel_eq_drainFuel (hshrinks : Shrinks decode) {fuel fuel' : Nat}
    {buf : List β} (hfuel : buf.length ≤ fuel) (hfuel' : buf.length ≤ fuel') :
    drainFuel decode fuel buf = drainFuel decode fuel' buf := by
  induction fuel generalizing fuel' buf with
  | zero =>
      obtain rfl := List.length_eq_zero_iff.mp (Nat.le_zero.mp hfuel)
      cases fuel' <;> simp [drainFuel]
  | succ fuel ih =>
      cases fuel' with
      | zero =>
          obtain rfl := List.length_eq_zero_iff.mp (Nat.le_zero.mp hfuel')
          simp [drainFuel]
      | succ fuel' =>
          simp only [drainFuel]
          split
          · rfl
          · split
            · rename_i value consumed rest hdecode
              have hlt := hshrinks _ _ _ _ hdecode
              have hrest : drainFuel decode fuel rest = drainFuel decode fuel' rest :=
                ih (by omega) (by omega)
              rw [hrest]
            · rfl
            · rfl

theorem drain_ok (hshrinks : Shrinks decode) {buf rest : List β} {value : α}
    {consumed : Nat} (hdecode : decode buf = (.ok value consumed, rest)) :
    drain decode buf =
      ⟨value :: (drain decode rest).values, (drain decode rest).rest,
        (drain decode rest).error⟩ := by
  have hlt := hshrinks _ _ _ _ hdecode
  obtain ⟨b, buf, rfl⟩ := List.exists_cons_of_length_pos (Nat.zero_lt_of_lt hlt)
  unfold drain
  rw [List.length_cons, drainFuel, if_neg (by simp), hdecode]
  simp only
  rw [drainFuel_eq_drainFuel hshrinks (by simpa [Nat.lt_succ_iff] using hlt) (Nat.le_refl _)]

theorem drain_needMoreData {buf : List β} (hdecode : decode buf = (.needMoreData, buf)) :
    drain decode buf = ⟨[], buf, none⟩ := by
  cases buf with
  | nil => rfl
  | cons b buf => simp [drain, drainFuel, hdecode]

/-- A buffer of frames is taken apart again, if every frame is recognised in
front of what follows it. -/
theorem drain_flatMap_append (hshrinks : Shrinks decode) (encode : α → List β)
    (values : List α) (tail : List β)
    (hdecode : ∀ before value after, values = before ++ value :: after →
      decode (encode value ++ (after.flatMap encode ++ tail)) =
        (.ok value (encode value).length, after.flatMap encode ++ tail)) :
    drain decode (values.flatMap encode ++ tail) =
      ⟨values ++ (drain decode tail).values, (drain decode tail).rest,
        (drain decode tail).error⟩ := by
  induction values with
  | nil => rfl
  | cons value values ih =>
      have hhead := hdecode [] value values rfl
      have htail := ih fun before v after hsplit =>
        hdecode (value :: before) v after (by rw [hsplit]; rfl)
      rw [List.flatMap_cons, List.append_assoc, drain_ok hshrinks hhead, htail]
      rfl

end Drain

end TrojanServer.FrameDecoding
