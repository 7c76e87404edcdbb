import TrojanServer.CheckedOps
import TrojanServer.GrpcFrames

namespace TrojanServer.GrpcIndexing

open TrojanServer.AsyncIo
open TrojanServer.CheckedOps
open TrojanServer.GrpcCodec

/-- The loop of `decode_varint`; the shift count is a 32-bit signed integer. -/
def decodeVarintFrom : List UInt8 → Nat → Nat → UInt64 → Checked (Except IoError (UInt64 × Nat))
  | [], _, _, _ => pure (.error ⟨.unexpectedEof, "incomplete varint"⟩)
  | byte :: data, i, shift, result =>
      if 10 ≤ i then pure (.error ⟨.invalidData, "varint too long"⟩)
      else do
        let group ← shl (byte &&& 0x7F).toUInt64 shift
        let result := result ||| group
        if byte &&& 0x80 = 0 then
          let n ← add 64 i 1
          pure (.ok (result, n))
        else
          let shift ← add 31 shift 7
          decodeVarintFrom data (i + 1) shift result

def decodeVarint (data : List UInt8) : Checked (Except IoError (UInt64 × Nat)) :=
  decodeVarintFrom data 0 0 0

/-- What the loop over the fields collects: the range of the first field, and the
ranges of all of them once there is a second. -/
structure Ranges where
  first : Option (Nat × Nat)
  fields : List (Nat × Nat)

def Ranges.push (ranges : Ranges) (field : Nat × Nat) : Ranges :=
  match ranges.first with
  | none => { ranges with first := some field }
  | some f =>
      let fields := if ranges.fields.isEmpty then [f] else ranges.fields
      { ranges with fields := fields ++ [field] }

def walkFields (buf : List UInt8) (grpcFrameLen consumed : Nat) :
    Nat → Ranges → Nat → Checked (Except IoError Ranges)
  | 0, _, _ => .error .diverged
  | fuel + 1, ranges, pos =>
      if pos < consumed then do
        let tag ← index buf pos
        if tag ≠ 0x0A then
          pure (.error ⟨.invalidData,
            "unexpected protobuf tag: 0x" ++ fmtHex tag ++ ", expected 0x0A"⟩)
        else
          let start ← add 64 pos 1
          let data ← range buf start consumed
          match ← decodeVarint data with
          | .error e => pure (.error e)
          | .ok (len, varintBytes) =>
              let dataStart ← add 64 start varintBytes
              match (checkedAdd 64 dataStart len.toNat).filter (· ≤ consumed) with
              | none => pure (.error ⟨.invalidData, "payload length " ++ toString len.toNat ++
                  " exceeds gRPC frame length " ++ toString grpcFrameLen⟩)
              | some dataEnd =>
                  walkFields buf grpcFrameLen consumed fuel (ranges.push (dataStart, dataEnd))
                    dataEnd
      else pure (.ok ranges)

def collect (frame : List UInt8) (ranges : Ranges) : Checked (List UInt8) :=
  if !ranges.fields.isEmpty then do
    let lens ← ranges.fields.mapM fun field => sub field.2 field.1
    let _capacity ← sum 64 lens
    let parts ← ranges.fields.mapM fun field => range frame field.1 field.2
    pure parts.flatten
  else
    match ranges.first with
    | some field => range frame field.1 field.2
    | none => pure []

def parseGrpcMessageZerocopy (buf : List UInt8) :
    Checked (Except IoError (Option (List UInt8 × Nat)) × List UInt8) :=
  if buf.length < 5 then pure (.ok none, buf)
  else do
    let flag ← index buf 0
    if flag ≠ 0x00 then pure (.error ⟨.invalidData, "compressed gRPC not supported"⟩, buf)
    else
      let a ← index buf 1
      let b ← index buf 2
      let c ← index buf 3
      let d ← index buf 4
      let grpcFrameLen := (fromBeBytes32 a b c d).toNat
      let consumed ← add 64 5 grpcFrameLen
      if buf.length < consumed then pure (.ok none, buf)
      else
        match ← walkFields buf grpcFrameLen consumed (grpcFrameLen + 1) ⟨none, []⟩ 5 with
        | .error e => pure (.error e, buf)
        | .ok ranges =>
            let (frame, rest) ← splitTo buf consumed
            let payload ← collect frame ranges
            pure (.ok (some (payload, consumed)), rest)

section Varint

theorem decodeVarintFrom_eq {data : List UInt8} {i : Nat} {result : UInt64} (hi : i ≤ 10) :
    decodeVarintFrom data i (7 * i) result =
      .ok (GrpcCodec.decodeVarintFrom data i (7 * i) result) := by
  induction data generalizing i result with
  | nil => rfl
  | cons byte data ih =>
      rw [decodeVarintFrom, GrpcCodec.decodeVarintFrom]
      rcases Nat.lt_or_ge i 10 with hlt | hge
      · rw [if_neg (by omega), if_neg (by omega), shl_eq_ok (by omega), ok_bind]
        simp only
        split
        · rw [add_eq_ok (by omega)]
          rfl
        · rw [add_eq_ok (by omega), ok_bind]
          exact ih hlt
      · rw [if_pos hge, if_pos hge]
        rfl

theorem decodeVarint_eq (data : List UInt8) :
    decodeVarint data = .ok (GrpcCodec.decodeVarint data) :=
  decodeVarintFrom_eq (Nat.zero_le 10)

end Varint

section Walk

def cut (frame : List UInt8) (field : Nat × Nat) : List UInt8 := (frame.take field.2).drop field.1

/-- The walk from `pos` on, next to the fields that the parser over lists finds there.
The lengths of the fields add up to no more than is left of the frame. -/
inductive Walked (frame : List UInt8) (pos : Nat) (ranges : Ranges) :
    Except IoError Ranges → Except IoError (List (List UInt8)) → Prop
  | failed (e : IoError) : Walked frame pos ranges (.error e) (.error e)
  | done (fields : List (Nat × Nat))
      (hin : ∀ field ∈ fields, field.1 ≤ field.2 ∧ field.2 ≤ frame.length)
      (hsum : (fields.map fun field => field.2 - field.1).sum ≤ frame.length - pos) :
      Walked frame pos ranges (.ok (fields.foldl Ranges.push ranges))
        (.ok (fields.map (cut frame)))

theorem walked_nil (frame : List UInt8) (pos : Nat) (ranges : Ranges) :
    Walked frame pos ranges (.ok ranges) (.ok []) :=
  .done [] (by simp) (by simp)

theorem cut_add (frame : List UInt8) (start len : Nat) :
    cut frame (start, start + len) = (frame.drop start).take len := by
  rw [cut, List.drop_take, Nat.add_sub_cancel_left]

theorem walked_cons {frame : List UInt8} {pos start len : Nat} {ranges : Ranges}
    {result : Except IoError Ranges} {rest : Except IoError (List (List UInt8))}
    (hpos : pos ≤ start) (hlen : start + len ≤ frame.length) :
    Walked frame (start + len) (ranges.push (start, start + len)) result rest →
    Walked frame pos ranges result
      (match rest with
        | .error e => .error e
        | .ok fields => .ok ((frame.drop start).take len :: fields)) := by
  intro h
  cases h with
  | failed e => exact .failed e
  | done fields hin hsum =>
      rw [← cut_add]
      refine .done ((start, start + len) :: fields) ?_ ?_
      · intro field hfield
        rcases List.mem_cons.mp hfield with rfl | hfield
        · exact ⟨Nat.le_add_right .., hlen⟩
        · exact hin field hfield
      · simp only [List.map_cons, List.sum_cons]
        omega

/-- The loop ends without a panic, at the result of the parser over lists. -/
theorem walkFields_spec {buf : List UInt8} {len consumed fuel : Nat} (hlen : consumed ≤ buf.length)
    (hword : consumed < 2 ^ 63) {pos fuel' : Nat} (hpos : pos ≤ consumed)
    (hfuel : consumed - pos < fuel) (hfuel' : consumed - pos ≤ fuel') (ranges : Ranges) :
    ∃ result, walkFields buf len consumed fuel ranges pos = .ok result ∧
      Walked (buf.take consumed) pos ranges result
        (parseFieldsFrom len fuel' ((buf.take consumed).drop pos)) := by
  induction fuel generalizing pos fuel' ranges with
  | zero => omega
  | succ fuel ih =>
      have hframe : (buf.take consumed).length = consumed := by simpa using hlen
      rw [walkFields]
      rcases Nat.lt_or_ge pos consumed with hlt | hge
      · obtain ⟨fuel', rfl⟩ : ∃ n, fuel' = n + 1 := ⟨fuel' - 1, by omega⟩
        have hcons : (buf.take consumed).drop pos =
            buf[pos] :: (buf.take consumed).drop (pos + 1) := by
          rw [List.drop_eq_getElem_cons (by omega), List.getElem_take]
        rw [if_pos hlt, index_eq_ok (by omega), ok_bind, hcons, parseFieldsFrom]
        split
        · exact ⟨_, rfl, .failed _⟩
        rw [add_eq_ok (by omega), ok_bind, range_eq_ok (by omega) hlen, ok_bind, decodeVarint_eq,
          ok_bind]
        have hdata : ((buf.take consumed).drop (pos + 1)).length = consumed - (pos + 1) := by
          rw [List.length_drop, hframe]
        cases hvarint : GrpcCodec.decodeVarint ((buf.take consumed).drop (pos + 1)) with
        | error e => exact ⟨_, rfl, .failed e⟩
        | ok read =>
            obtain ⟨value, varintBytes⟩ := read
            obtain ⟨-, hle, -⟩ := decodeVarint_take hvarint
            rw [hdata] at hle
            simp only
            rw [add_eq_ok (by omega), ok_bind, checkedAdd_filter_le (by omega), hdata,
              List.drop_drop, List.drop_drop]
            by_cases hfits : pos + 1 + varintBytes + value.toNat ≤ consumed
            · rw [if_pos hfits, if_neg (by omega)]
              have hleft : consumed - (pos + 1 + varintBytes + value.toNat) ≤ fuel' := by omega
              obtain ⟨result, hwalk, hwalked⟩ := ih hfits (by omega) hleft
                (ranges.push (pos + 1 + varintBytes, pos + 1 + varintBytes + value.toNat))
              refine ⟨result, hwalk, ?_⟩
              rw [show pos + 1 + (varintBytes + value.toNat) =
                pos + 1 + varintBytes + value.toNat by omega]
              exact walked_cons (by omega) (by omega) hwalked
            · rw [if_neg hfits, if_pos (by omega)]
              exact ⟨_, rfl, .failed _⟩
      · obtain rfl : pos = consumed := by omega
        refine ⟨.ok ranges, if_neg (Nat.lt_irrefl pos), ?_⟩
        rw [List.drop_of_length_le (by omega)]
        cases fuel' with
        | zero => exact walked_nil ..
        | succ fuel' => exact walked_nil ..

end Walk

section Payload

/-- The first range stands for itself as long as it is the only one. -/
theorem foldl_push (fields : List (Nat × Nat)) :
    fields.foldl Ranges.push ⟨none, []⟩ =
      ⟨fields.head?, if fields.length ≤ 1 then [] else fields⟩ := by
  induction fields using List.reverseRecOn with
  | nil => rfl
  | append_singleton fields field ih =>
      rw [List.foldl_concat, ih]
      rcases fields with _ | ⟨f, _ | ⟨g, fields⟩⟩
      · rfl
      · rfl
      · simp [Ranges.push]

theorem collect_eq_ok {frame : List UInt8} {fields : List (Nat × Nat)}
    (hin : ∀ field ∈ fields, field.1 ≤ field.2 ∧ field.2 ≤ frame.length)
    (hsum : (fields.map fun field => field.2 - field.1).sum < 2 ^ 64) :
    collect frame (fields.foldl Ranges.push ⟨none, []⟩) =
      .ok (fields.map (cut frame)).flatten := by
  rw [foldl_push]
  rcases fields with _ | ⟨f, _ | ⟨g, fields⟩⟩
  · rfl
  · obtain ⟨hle, hlen⟩ := hin f List.mem_cons_self
    simp [collect, range_eq_ok hle hlen, cut]
  · have hlens := mapM_eq_ok (f := fun field : Nat × Nat => sub field.2 field.1)
      fun field hfield => sub_eq_ok (hin field hfield).1
    have hparts := mapM_eq_ok (f := fun field : Nat × Nat => range frame field.1 field.2)
      fun field hfield => range_eq_ok (hin field hfield).1 (hin field hfield).2
    simp only [collect, List.length_cons, Nat.not_le.mpr (Nat.succ_lt_succ (Nat.succ_pos _)),
      if_false, List.isEmpty_cons, Bool.not_false, if_true]
    rw [hlens, ok_bind, sum_eq_ok hsum, ok_bind, hparts]
    rfl

end Payload

/-- The parser with indices does not panic and ends, at the result of the one over lists. -/
theorem parseGrpcMessageZerocopy_eq (buf : List UInt8) :
    parseGrpcMessageZerocopy buf = .ok (GrpcCodec.parseGrpcMessageZerocopy buf) := by
  rcases buf with _ | ⟨flag, _ | ⟨a, _ | ⟨b, _ | ⟨c, _ | ⟨d, data⟩⟩⟩⟩⟩
  any_goals rfl
  unfold parseGrpcMessageZerocopy GrpcCodec.parseGrpcMessageZerocopy
  rw [if_neg (by simp)]
  simp only [index, List.getElem?_cons_zero, List.getElem?_cons_succ, ok_bind]
  split
  · rfl
  have hlen := (fromBeBytes32 a b c d).toNat_lt
  rw [add_eq_ok (by omega), ok_bind]
  split
  · rfl
  rename_i hsize
  have hfuel : 5 + (fromBeBytes32 a b c d).toNat - 5 < (fromBeBytes32 a b c d).toNat + 1 := by
    omega
  have hfuel' : 5 + (fromBeBytes32 a b c d).toNat - 5 ≤ (fromBeBytes32 a b c d).toNat := by omega
  obtain ⟨result, hwalk, hwalked⟩ :=
    walkFields_spec (Nat.le_of_not_lt hsize) (by omega) (by omega) hfuel hfuel' ⟨none, []⟩
  have hbody : parseFieldsFrom (fromBeBytes32 a b c d).toNat (fromBeBytes32 a b c d).toNat
      (((flag :: a :: b :: c :: d :: data).take (5 + (fromBeBytes32 a b c d).toNat)).drop 5) =
      parseFields (data.take (fromBeBytes32 a b c d).toNat) := by
    have htake : (data.take (fromBeBytes32 a b c d).toNat).length =
        (fromBeBytes32 a b c d).toNat := by
      simp only [List.length_cons] at hsize
      rw [List.length_take]
      omega
    rw [parseFields, htake, List.drop_take, Nat.add_sub_cancel_left]
    rfl
  rw [hbody] at hwalked
  rw [hwalk, ok_bind]
  revert hwalked
  generalize parseFields (data.take (fromBeBytes32 a b c d).toNat) = fields
  intro hwalked
  cases hwalked with
  | failed e => rfl
  | done fields hin hsum =>
      simp only
      rw [splitTo_eq_ok (Nat.le_of_not_lt hsize), ok_bind]
      simp only
      rw [collect_eq_ok hin (by simp at hsum; omega)]
      rfl

end TrojanServer.GrpcIndexing
