import Mathlib.Algebra.GroupWithZero.Nat
import TrojanServer.AsyncIo

namespace TrojanServer.GrpcCodec

open TrojanServer.AsyncIo

def toBeBytes32 (value : UInt32) : List UInt8 :=
  [UInt8.ofNat (value.toNat / 2 ^ 24), UInt8.ofNat (value.toNat / 2 ^ 16),
    UInt8.ofNat (value.toNat / 2 ^ 8), UInt8.ofNat value.toNat]

def fromBeBytes32 (a b c d : UInt8) : UInt32 :=
  UInt32.ofNat (((a.toNat * 256 + b.toNat) * 256 + c.toNat) * 256 + d.toNat)

def declaredFrameLen : List UInt8 → Option Nat
  | _ :: a :: b :: c :: d :: _ => some (fromBeBytes32 a b c d).toNat
  | _ => none

/-- The loop of `decode_varint` after `i` bytes. -/
def decodeVarintFrom : List UInt8 → Nat → Nat → UInt64 → Except IoError (UInt64 × Nat)
  | [], _, _, _ => .error ⟨.unexpectedEof, "incomplete varint"⟩
  | byte :: data, i, shift, result =>
      if 10 ≤ i then .error ⟨.invalidData, "varint too long"⟩
      else
        let result := result ||| ((byte &&& 0x7F).toUInt64 <<< UInt64.ofNat shift)
        if byte &&& 0x80 = 0 then .ok (result, i + 1)
        else decodeVarintFrom data (i + 1) (shift + 7) result

def decodeVarint (data : List UInt8) : Except IoError (UInt64 × Nat) := decodeVarintFrom data 0 0 0

def varintLen (value : UInt64) : Nat :=
  if value = 0 then 1
  else
    let bits := value.toNat.log2 + 1
    (bits + 6) / 7

/-- The loop of `encode_varint`, for at most `rounds` bytes. -/
def encodeVarintFrom : Nat → UInt64 → List UInt8
  | 0, _ => []
  | rounds + 1, value =>
      let byte := (value &&& 0x7F).toUInt8
      let value := value >>> 7
      if value ≠ 0 then (byte ||| 0x80) :: encodeVarintFrom rounds value else [byte]

/-- A 64-bit value has ten groups of seven bits. -/
def encodeVarint (value : UInt64) : List UInt8 := encodeVarintFrom 10 value

def hexDigit (n : Nat) : Char := "0123456789ABCDEF".toList.getD n '0'

def fmtHex (byte : UInt8) : String :=
  String.ofList [hexDigit (byte.toNat / 16), hexDigit (byte.toNat % 16)]

/-- The walk over the fields in what is left of the frame.  A field takes at least
its tag, so the length of the body is fuel enough. -/
def parseFieldsFrom (grpcFrameLen : Nat) : Nat → List UInt8 → Except IoError (List (List UInt8))
  | 0, _ => .ok []
  | _ + 1, [] => .ok []
  | fuel + 1, tag :: data =>
      if tag ≠ 0x0A then
        .error ⟨.invalidData, "unexpected protobuf tag: 0x" ++ fmtHex tag ++ ", expected 0x0A"⟩
      else
        match decodeVarint data with
        | .error e => .error e
        | .ok (len, varintBytes) =>
            if data.length < varintBytes + len.toNat then
              .error ⟨.invalidData, "payload length " ++ toString len.toNat ++
                " exceeds gRPC frame length " ++ toString grpcFrameLen⟩
            else
              let field := (data.drop varintBytes).take len.toNat
              match parseFieldsFrom grpcFrameLen fuel (data.drop (varintBytes + len.toNat)) with
              | .error e => .error e
              | .ok fields => .ok (field :: fields)

def parseFields (body : List UInt8) : Except IoError (List (List UInt8)) :=
  parseFieldsFrom body.length body.length body

def parseGrpcMessageZerocopy (buf : List UInt8) :
    Except IoError (Option (List UInt8 × Nat)) × List UInt8 :=
  match buf with
  | flag :: a :: b :: c :: d :: data =>
      if flag ≠ 0x00 then (.error ⟨.invalidData, "compressed gRPC not supported"⟩, buf)
      else
        let grpcFrameLen := (fromBeBytes32 a b c d).toNat
        let consumed := 5 + grpcFrameLen
        if buf.length < consumed then (.ok none, buf)
        else
          match parseFields (data.take grpcFrameLen) with
          | .error e => (.error e, buf)
          -- one field is a slice of the frame, several are concatenated
          | .ok fields => (.ok (some (fields.flatten, consumed)), buf.drop consumed)
  | _ => (.ok none, buf)

def encodeGrpcMessage (payload : List UInt8) : List UInt8 :=
  let varintBytes := varintLen (UInt64.ofNat payload.length)
  let protoLen := 1 + varintBytes + payload.length
  0x00 :: (toBeBytes32 (UInt32.ofNat protoLen) ++
    0x0A :: (encodeVarint (UInt64.ofNat payload.length) ++ payload))

end TrojanServer.GrpcCodec
