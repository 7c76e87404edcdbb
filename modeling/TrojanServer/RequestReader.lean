import TrojanServer.AsyncIo
import TrojanServer.Protocol
import TrojanServer.StepMachine

/-!
`read_trojan_request` of `handler.rs` as a machine.  An input is the result of one
`read_buf` on the client stream; after each read the loop comes round to its top,
where the buffer is probed and, if it holds a complete header, decoded.
-/

namespace TrojanServer.RequestReader

open TrojanServer.AsyncIo
open TrojanServer.FrameDecoding
open TrojanServer.Protocol

/-- How the function ends.  `aborted` is its `unreachable!`, which takes the whole
server down. -/
inductive Outcome where
  | request (request : TrojanRequest)
  | failed (message : String)
  | aborted
  deriving DecidableEq

structure Reader where
  buf : List UInt8
  outcome : Option Outcome
  deriving DecidableEq

/-- The top of the loop. -/
def Reader.probe (buf : List UInt8) : Reader :=
  if TrojanRequest.minSize ≤ buf.length then
    match TrojanRequest.checkComplete buf with
    | .ok _ =>
        match TrojanRequest.decodeZerocopy buf with
        | (.ok request _, rest) => ⟨rest, some (.request request)⟩
        | (.invalid message, rest) => ⟨rest, some (.failed ("Invalid request: " ++ message))⟩
        | (.needMoreData, rest) => ⟨rest, some .aborted⟩
    | .error none => ⟨buf, none⟩
    | .error (some message) => ⟨buf, some (.failed ("Invalid request: " ++ message))⟩
  else ⟨buf, none⟩

def Reader.start : Reader := Reader.probe []

def Reader.step (bufferSize : Nat) (r : Reader) (read : Except IoError (List UInt8)) :
    Option (Reader × Unit) :=
  match r.outcome with
  | some _ => none
  | none =>
      match read with
      | .error e => some ({ r with outcome := some (.failed e.message) }, ())
      | .ok [] =>
          if r.buf.isEmpty then
            some ({ r with outcome := some (.failed "Connection closed before receiving request") },
              ())
          else
            some ({ r with outcome := some (.failed "Connection closed with incomplete request") },
              ())
      | .ok bytes =>
          let buf := r.buf ++ bytes
          if bufferSize * 2 < buf.length then
            some (⟨buf, some (.failed "Request too large")⟩, ())
          else some (Reader.probe buf, ())

def readTrojanRequest (bufferSize : Nat) (reads : List (Except IoError (List UInt8))) :
    Option (Reader × List (Except IoError (List UInt8) × Unit)) :=
  StepMachine.run (Reader.step bufferSize) Reader.start reads

end TrojanServer.RequestReader
