import Mathlib.Data.List.Basic

/-!
`transport/grpc/heartbeat.rs`.  A `poll` changes nothing before the await it is in is
resolved and does not wait again after that, so it is one step from there to its return;
a `poll` that is dropped while it waits has no effect.  The flag that the streams raise
is read and cleared at once, and stands in the state of the heartbeat.
-/

namespace TrojanServer.Heartbeat

def maxMissedPings : Nat := 3

structure H2Heartbeat where
  /-- Whether the connection has a handle for PING and PONG frames. -/
  pingPong : Bool
  activity : Bool
  waitingPong : Bool
  missedPings : Nat
  deriving DecidableEq

/-- The call of `send_ping` at a tick. -/
inductive PingCall where
  | notMade
  | sent
  | failed
  deriving DecidableEq

/-- What resolves the await of a `poll`. -/
inductive Wake where
  | pong
  | pongError
  | tick (ping : PingCall)
  deriving DecidableEq

namespace H2Heartbeat

def new (pingPong activity : Bool) : H2Heartbeat where
  pingPong := pingPong
  activity := activity
  waitingPong := false
  missedPings := 0

variable (hb : H2Heartbeat)

def onActivity : H2Heartbeat := { hb with missedPings := 0 }

def takeActivity : Bool × H2Heartbeat := (hb.activity, { hb with activity := false })

def poll (wake : Wake) : Option (H2Heartbeat × Except String Unit) :=
  if !hb.pingPong then none
  else if hb.waitingPong then
    match wake with
    | .pong => some ({ hb with waitingPong := false, missedPings := 0 }, .ok ())
    | .pongError => some ({ hb with waitingPong := false }, .error "PONG error")
    | .tick .notMade =>
        let taken := hb.takeActivity
        if taken.1 then some ({ taken.2 with missedPings := 0 }, .ok ())
        else
          let missedPings := hb.missedPings + 1
          let hb := { taken.2 with missedPings := missedPings }
          if maxMissedPings ≤ missedPings then some (hb, .error "heartbeat timeout")
          else some (hb, .ok ())
    | _ => none
  else
    match wake with
    | .tick .sent => some ({ hb.takeActivity.2 with waitingPong := true }, .ok ())
    | .tick .failed => some (hb.takeActivity.2, .ok ())
    | _ => none

end H2Heartbeat

/-- What happens to the heartbeat of a connection. -/
inductive Event where
  | poll (wake : Wake)
  /-- Another branch of the loop was taken, and the waiting `poll` dropped. -/
  | cancelled
  /-- A stream received data. -/
  | data
  /-- The connection accepted a request. -/
  | request
  deriving DecidableEq

/-- The heartbeat under the loop of the connection, which ends at the first error. -/
structure Monitor where
  heartbeat : H2Heartbeat
  ended : Bool
  deriving DecidableEq

def start (pingPong activity : Bool) : Monitor := ⟨.new pingPong activity, false⟩

def failed : Except String Unit → Bool
  | .ok _ => false
  | .error _ => true

/-- One event, with what `poll` returned if it did. -/
def step (m : Monitor) (event : Event) : Option (Monitor × Option (Except String Unit)) :=
  if m.ended then none
  else
    match event with
    | .poll wake => (m.heartbeat.poll wake).map fun polled =>
        (⟨polled.1, failed polled.2⟩, some polled.2)
    | .cancelled => some (m, none)
    | .data => some ({ m with heartbeat := { m.heartbeat with activity := true } }, none)
    | .request => some ({ m with heartbeat := m.heartbeat.onActivity }, none)

abbrev History := List (Event × Option (Except String Unit))

end TrojanServer.Heartbeat
