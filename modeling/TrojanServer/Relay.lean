import TrojanServer.PollCopySpec
import TrojanServer.StepMachine

/-!
`copy_bidirectional_with_stats` of `core/relay.rs` as a machine that is polled.
Each poll is given the clock and the I/O calls its two directions make; it
returns the calls it makes on the traffic collector and on its two timers.
A timer is its deadline, and is ready once the clock has reached it.
-/

namespace TrojanServer.Relay

open TrojanServer.AsyncIo
open TrojanServer.PollCopy

abbrev UserId := Int

inductive RelayTermination where
  | completed
  | halfCloseTimeout
  | idleTimeout
  | error
  deriving Repr, DecidableEq

structure CopyResult where
  aToB : Nat
  bToA : Nat
  termination : RelayTermination
  clientEof : Bool
  remoteEof : Bool
  deriving Repr, DecidableEq

/-- The arguments of the relay.  Time is counted in one arbitrary unit. -/
structure RelayConfig where
  idleTimeout : Nat
  uplinkOnlyTimeout : Nat
  downlinkOnlyTimeout : Nat
  bufferSize : Nat
  stats : Option UserId
  deriving Repr, DecidableEq

structure RelayState where
  aToB : DirectionalBuffer
  bToA : DirectionalBuffer
  halfCloseSleep : Nat
  halfCloseActive : Bool
  halfCloseTimeout : Nat
  idleSleep : Nat
  termination : RelayTermination
  reportedUp : Nat
  reportedDown : Nat
  deriving Repr, DecidableEq

inductive Effect where
  | recordUpload (user : UserId) (bytes : Nat)
  | recordDownload (user : UserId) (bytes : Nat)
  | armHalfClose (deadline : Nat)
  | resetIdle (deadline : Nat)
  | resetHalfClose (deadline : Nat)
  deriving Repr, DecidableEq

/-- What the world supplies to one poll: the clock, and the I/O calls of the
client-to-remote (`up`) and the remote-to-client (`down`) direction. -/
structure PollCalls where
  now : Nat
  up : List IoCall
  down : List IoCall
  deriving Repr, DecidableEq

def RelayState.start (cfg : RelayConfig) (now : Nat) : RelayState where
  aToB := DirectionalBuffer.new cfg.bufferSize
  bToA := DirectionalBuffer.new cfg.bufferSize
  halfCloseSleep := now
  halfCloseActive := false
  halfCloseTimeout := 0
  idleSleep := now + cfg.idleTimeout
  termination := .completed
  reportedUp := 0
  reportedDown := 0

/-- Poll a direction unless it is done.  The second component is the error that
makes the whole relay return. -/
def pollDirection (d : DirectionalBuffer) (calls : List IoCall) :
    Option (DirectionalBuffer × Option IoError) :=
  if !d.isDone then
    match d.pollCopy calls with
    | none => none
    | some (d', .ready (.error e)) => some (d', some e)
    | some (d', _) => some (d', none)
  else if calls = [] then some (d, none)
  else none

def armHalfCloseFor (finished remaining : DirectionalBuffer) (timeout now : Nat)
    (s : RelayState) : RelayState × List Effect :=
  if finished.isDrained && !remaining.isDone && !s.halfCloseActive then
    ({ s with halfCloseActive := true
              halfCloseTimeout := timeout
              halfCloseSleep := now + timeout },
      [.armHalfClose (now + timeout)])
  else (s, [])

/-- Client EOF leaves only the downlink, remote EOF only the uplink. -/
def armHalfClose (cfg : RelayConfig) (now : Nat) (s : RelayState) :
    RelayState × List Effect :=
  let r := armHalfCloseFor s.aToB s.bToA cfg.downlinkOnlyTimeout now s
  let r' := armHalfCloseFor s.bToA s.aToB cfg.uplinkOnlyTimeout now r.1
  (r'.1, r.2 ++ r'.2)

def unreported (record : Nat → Effect) (transferred reported : Nat) : List Effect :=
  if reported < transferred then [record (transferred - reported)] else []

def reportTraffic (cfg : RelayConfig) (s : RelayState) : RelayState × List Effect :=
  match cfg.stats with
  | none => (s, [])
  | some user =>
      let up := s.aToB.bytesTransferred
      let down := s.bToA.bytesTransferred
      ({ s with reportedUp := if s.reportedUp < up then up else s.reportedUp
                reportedDown := if s.reportedDown < down then down else s.reportedDown },
        unreported (.recordUpload user) up s.reportedUp ++
          unreported (.recordDownload user) down s.reportedDown)

def resetTimers (cfg : RelayConfig) (now : Nat) (progress : Bool) (s : RelayState) :
    RelayState × List Effect :=
  if progress then
    if s.halfCloseActive then
      ({ s with idleSleep := now + cfg.idleTimeout
                halfCloseSleep := now + s.halfCloseTimeout },
        [.resetIdle (now + cfg.idleTimeout), .resetHalfClose (now + s.halfCloseTimeout)])
    else
      ({ s with idleSleep := now + cfg.idleTimeout }, [.resetIdle (now + cfg.idleTimeout)])
  else (s, [])

def checkTermination (now : Nat) (s : RelayState) :
    RelayState × Poll (Except IoError Unit) :=
  if s.aToB.isDone && s.bToA.isDone then
    ({ s with termination := .completed }, .ready (.ok ()))
  else if s.halfCloseActive && decide (s.halfCloseSleep ≤ now) then
    ({ s with termination := .halfCloseTimeout }, .ready (.ok ()))
  else if s.idleSleep ≤ now then
    ({ s with termination := .idleTimeout }, .ready (.ok ()))
  else (s, .pending)

/-- New bytes were written and the flush succeeded, in the poll that led from
`before` to `after`. -/
def madeProgress (before after : DirectionalBuffer) : Bool :=
  decide (before.bytesTransferred < after.bytesTransferred) && after.hasFlushed

def poll (cfg : RelayConfig) (s : RelayState) (p : PollCalls) :
    Option (RelayState × List Effect × Poll (Except IoError Unit)) :=
  match pollDirection s.aToB p.up with
  | none => none
  | some (aToB, some e) =>
      -- the other direction is not polled
      if p.down = [] then
        some ({ s with aToB, termination := .error }, [], .ready (.error e))
      else none
  | some (aToB, none) =>
      match pollDirection s.bToA p.down with
      | none => none
      | some (bToA, some e) =>
          some ({ s with aToB, bToA, termination := .error }, [], .ready (.error e))
      | some (bToA, none) =>
          let armed := armHalfClose cfg p.now { s with aToB, bToA }
          let reported := reportTraffic cfg armed.1
          let progress := madeProgress s.aToB aToB || madeProgress s.bToA bToA
          let reset := resetTimers cfg p.now progress reported.1
          let ended := checkTermination p.now reset.1
          some (ended.1, armed.2 ++ reported.2 ++ reset.2, ended.2)

def finalReport (cfg : RelayConfig) (s : RelayState) : List Effect :=
  match cfg.stats with
  | none => []
  | some user =>
      unreported (.recordUpload user) s.aToB.bytesTransferred s.reportedUp ++
        unreported (.recordDownload user) s.bToA.bytesTransferred s.reportedDown

def copyResult (s : RelayState) : CopyResult where
  aToB := s.aToB.bytesTransferred
  bToA := s.bToA.bytesTransferred
  termination := s.termination
  clientEof := s.aToB.hasReadEof
  remoteEof := s.bToA.hasReadEof

structure RelayFuture where
  state : RelayState
  returned : Option (Except IoError CopyResult)
  deriving Repr, DecidableEq

def RelayFuture.start (cfg : RelayConfig) (now : Nat) : RelayFuture where
  state := RelayState.start cfg now
  returned := none

/-- One poll of the future.  A resolved future is not polled again. -/
def RelayFuture.step (cfg : RelayConfig) (r : RelayFuture) (p : PollCalls) :
    Option (RelayFuture × List Effect) :=
  match r.returned with
  | some _ => none
  | none =>
      match poll cfg r.state p with
      | none => none
      | some (s, effects, .pending) => some (⟨s, none⟩, effects)
      | some (s, effects, .ready (.error e)) =>
          some (⟨s, some (.error e)⟩, effects ++ finalReport cfg s)
      | some (s, effects, .ready (.ok ())) =>
          some (⟨s, some (.ok (copyResult s))⟩, effects ++ finalReport cfg s)

/-- The relay polled along `polls`.  It creates its timers in its first poll, so
`now` is the time of that poll. -/
def copyBidirectionalWithStats (cfg : RelayConfig) (now : Nat) (polls : List PollCalls) :
    Option (RelayFuture × List (PollCalls × List Effect)) :=
  if polls.head?.all fun p => decide (p.now = now) then
    StepMachine.run (RelayFuture.step cfg) (RelayFuture.start cfg now) polls
  else none

theorem run_of_copyBidirectionalWithStats {cfg : RelayConfig} {now : Nat}
    {polls : List PollCalls} {r : RelayFuture} {trace : List (PollCalls × List Effect)}
    (h : copyBidirectionalWithStats cfg now polls = some (r, trace)) :
    StepMachine.run (RelayFuture.step cfg) (RelayFuture.start cfg now) polls =
      some (r, trace) :=
  (Option.ite_none_right_eq_some.mp h).2

abbrev Trace := List (PollCalls × List Effect)

def upCalls (trace : Trace) : List IoCall := trace.flatMap fun event => event.1.up

def downCalls (trace : Trace) : List IoCall := trace.flatMap fun event => event.1.down

@[simp] theorem upCalls_snoc (trace : Trace) (p : PollCalls) (effects : List Effect) :
    upCalls (trace ++ [(p, effects)]) = upCalls trace ++ p.up := by
  simp [upCalls]

@[simp] theorem downCalls_snoc (trace : Trace) (p : PollCalls) (effects : List Effect) :
    downCalls (trace ++ [(p, effects)]) = downCalls trace ++ p.down := by
  simp [downCalls]

end TrojanServer.Relay
