import TrojanServer.AsyncIo
import TrojanServer.FifoTransfer

/-!
One direction of the bidirectional copy (`DirectionalBuffer` of
`core/relay.rs`).  `poll_copy` is embedded call by call: `CopyPoint` says which
I/O call comes next, and `step` says what the code does with its result.
-/

namespace TrojanServer.PollCopy

open TrojanServer.AsyncIo
open TrojanServer.FifoTransfer

/-- Buffer for one direction.  `amt` counts the bytes written (a `u64` in the
source), `flushOk` remembers a successful flush of the current `poll_copy`. -/
structure DirectionalBuffer where
  buf : List UInt8
  pos : Nat
  cap : Nat
  amt : Nat
  readDone : Bool
  shutdownDone : Bool
  flushOk : Bool
  deriving Repr, DecidableEq

namespace DirectionalBuffer

def new (bufSize : Nat) : DirectionalBuffer where
  buf := List.replicate bufSize 0
  pos := 0
  cap := 0
  amt := 0
  readDone := false
  shutdownDone := false
  flushOk := false

def isDone (d : DirectionalBuffer) : Bool := d.shutdownDone

def hasReadEof (d : DirectionalBuffer) : Bool := d.readDone

def isDrained (d : DirectionalBuffer) : Bool := d.readDone && decide (d.cap ≤ d.pos)

def bytesTransferred (d : DirectionalBuffer) : Nat := d.amt

def hasFlushed (d : DirectionalBuffer) : Bool := d.flushOk

def unwritten (d : DirectionalBuffer) : List UInt8 := (d.buf.take d.cap).drop d.pos

def fill (d : DirectionalBuffer) (start : Nat) (bytes : List UInt8) : List UInt8 :=
  d.buf.take start ++ bytes ++ d.buf.drop (start + bytes.length)

end DirectionalBuffer

inductive CopyPoint where
  | write
  | probe
  | flush
  | shutdown
  | read
  deriving Repr, DecidableEq

inductive CopyStep where
  | call (d : DirectionalBuffer) (point : CopyPoint)
  | done (d : DirectionalBuffer) (result : Poll (Except IoError Unit))
  deriving Repr, DecidableEq

def CopyStep.buffer : CopyStep → DirectionalBuffer
  | .call d _ => d
  | .done d _ => d

def writeZeroError : IoError := ⟨.writeZero, "write zero bytes"⟩

namespace DirectionalBuffer

/-- Top of the loop: step 1 while data is unwritten, else step 2. -/
def loopHead (d : DirectionalBuffer) : CopyPoint :=
  if d.pos < d.cap then .write else .flush

/-- After the flush: step 3 once the reader hit EOF, else step 4. -/
def afterFlush (d : DirectionalBuffer) : CopyPoint :=
  if d.readDone then .shutdown else .read

/-- One I/O call of `poll_copy`.  Undefined when the call is not the one the
code makes at this point, or when its result breaks the contract of the call:
a writer accepts at most the slice, a reader fills at most the slice. -/
def step (d : DirectionalBuffer) : CopyPoint → IoCall → Option CopyStep
  -- Step 1: write buffered data
  | .write, .pollWrite slice result =>
      if slice = d.unwritten then
        match result with
        | .ready (.ok 0) => some (.done d (.ready (.error writeZeroError)))
        | .ready (.ok i) =>
            if i ≤ slice.length then
              let d' := { d with pos := d.pos + i, amt := d.amt + i }
              some (.call d' d'.loopHead)
            else none
        | .ready (.error e) => some (.done d (.ready (.error e)))
        | .pending =>
            if !d.readDone && decide (d.cap < d.buf.length) then
              some (.call d .probe)
            else some (.done d .pending)
      else none
  -- the read into `buf[cap..]` taken while the write is stalled
  | .probe, .pollRead room result =>
      if room = d.buf.length - d.cap then
        match result with
        | .ready (.ok bytes) =>
            if bytes.length ≤ room then
              if bytes.length = 0 then some (.done { d with readDone := true } .pending)
              else
                some (.done { d with buf := d.fill d.cap bytes
                                     cap := d.cap + bytes.length } .pending)
            else none
        | .ready (.error e) => some (.done d (.ready (.error e)))
        | .pending => some (.done d .pending)
      else none
  -- Step 2: best-effort flush
  | .flush, .pollFlush result =>
      match result with
      | .ready (.ok ()) => some (.call { d with flushOk := true } d.afterFlush)
      | .ready (.error e) => some (.done d (.ready (.error e)))
      | .pending => some (.call d d.afterFlush)
  -- Step 3: shutdown, its errors ignored
  | .shutdown, .pollShutdown result =>
      match result with
      | .ready _ => some (.done { d with shutdownDone := true } (.ready (.ok ())))
      | .pending => some (.done d .pending)
  -- Step 4: read more data
  | .read, .pollRead room result =>
      if room = d.buf.length then
        match result with
        | .ready (.ok bytes) =>
            if bytes.length ≤ room then
              let d' :=
                if bytes.length = 0 then { d with readDone := true }
                else { d with buf := d.fill 0 bytes, pos := 0, cap := bytes.length }
              some (.call d' d'.loopHead)
            else none
        | .ready (.error e) => some (.done d (.ready (.error e)))
        | .pending => some (.done d .pending)
      else none
  | _, _ => none

/-- Run the loop of `poll_copy` along the calls it makes.  Undefined while the
poll is still running, that is when the calls end before it returns. -/
def pollCopyFrom (d : DirectionalBuffer) (point : CopyPoint) :
    List IoCall → Option (DirectionalBuffer × Poll (Except IoError Unit))
  | [] => none
  | c :: calls =>
      match d.step point c with
      | none => none
      | some (.done d' result) => if calls = [] then some (d', result) else none
      | some (.call d' point') => pollCopyFrom d' point' calls

def pollCopy (d : DirectionalBuffer) (calls : List IoCall) :
    Option (DirectionalBuffer × Poll (Except IoError Unit)) :=
  if d.shutdownDone then
    if calls = [] then some (d, .ready (.ok ())) else none
  else
    let d' := { d with flushOk := false }
    d'.pollCopyFrom d'.loopHead calls

end DirectionalBuffer

end TrojanServer.PollCopy
