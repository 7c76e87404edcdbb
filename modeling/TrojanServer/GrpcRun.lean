import TrojanServer.GrpcPaths
import TrojanServer.GrpcSend
import TrojanServer.Heartbeat
import TrojanServer.StepMachine

/-!
The loop of `GrpcConnection::run`.  An input is a branch of its `select!` that was taken,
or something a stream did in a task of its own, with the time it happened; the tick of the
idle timer that is awaited before the loop is not one of them.
-/

namespace TrojanServer.GrpcRun

open TrojanServer.CheckedOps
open TrojanServer.GrpcPaths
open TrojanServer.GrpcSend
open TrojanServer.Heartbeat
open TrojanServer.StepMachine

structure GrpcConnection where
  idleTimeout : Nat
  expectedPath : String
  expectedMultiPath : String
  deriving DecidableEq

def withConfig (serviceName : String) (idleTimeout : Nat) : Checked GrpcConnection := do
  let paths ← grpcPaths serviceName
  .ok ⟨idleTimeout, paths.1, paths.2⟩

/-- The variables of the loop, and whether it was left. -/
structure Loop where
  heartbeat : H2Heartbeat
  activeStreams : Nat
  idleTicks : Nat
  left : Bool
  deriving DecidableEq

def Loop.start (pingPong : Bool) : Loop := ⟨.new pingPong false, 0, 0, false⟩

inductive LoopEvent where
  | request (method path : String)
  | connectionError (text : String)
  | connectionEnd
  | heartbeat (wake : Wake)
  | idleTick
  /-- A stream received data, and raised the flag of the heartbeat. -/
  | streamData
  /-- The task of a stream ended. -/
  | streamEnd
  deriving DecidableEq

inductive Outcome where
  | proceed
  | respond (headers : HeaderMap)
  | spawn
  | gracefulShutdown
  | leave (result : Except String Unit)
  deriving DecidableEq

def methodNotAllowed : HeaderMap := [(":status", "405")]

def unknownService : HeaderMap :=
  responseHeaders ++ [("grpc-status", "12"), ("grpc-message", "unknown service")]

namespace Loop

variable (s : Loop)

def leave (result : Except String Unit) : Loop × Outcome := ({ s with left := true }, .leave result)

def accept (conn : GrpcConnection) (method path : String) : Loop × Outcome :=
  let s := { s with heartbeat := s.heartbeat.onActivity }
  if method ≠ "POST" then (s, .respond methodNotAllowed)
  else if path ≠ conn.expectedPath ∧ path ≠ conn.expectedMultiPath then
    (s, .respond unknownService)
  else ({ s with idleTicks := 0, activeStreams := s.activeStreams + 1 }, .spawn)

def pollHeartbeat (wake : Wake) : Option (Loop × Outcome) :=
  (s.heartbeat.poll wake).map fun polled =>
    let s := { s with heartbeat := polled.1 }
    match polled.2 with
    | .ok () => (s, .proceed)
    | .error text => s.leave (.error ("gRPC " ++ text))

def idleTick : Loop × Outcome :=
  if s.activeStreams = 0 then
    let s := { s with idleTicks := s.idleTicks + 1 }
    if s.idleTicks = 3 then (s, .gracefulShutdown)
    else if 3 < s.idleTicks then s.leave (.ok ())
    else (s, .proceed)
  else ({ s with idleTicks := 0 }, .proceed)

end Loop

def GrpcConnection.step (conn : GrpcConnection) (s : Loop) (input : Nat × LoopEvent) :
    Option (Loop × Outcome) :=
  if s.left then none
  else
    match input.2 with
    | .request method path => some (s.accept conn method path)
    | .connectionError text => some (s.leave (.error ("gRPC connection error: " ++ text)))
    | .connectionEnd => some (s.leave (.ok ()))
    | .heartbeat wake => s.pollHeartbeat wake
    | .idleTick => some s.idleTick
    | .streamData =>
        some ({ s with heartbeat := { s.heartbeat with activity := true } }, .proceed)
    | .streamEnd =>
        if s.activeStreams = 0 then none
        else some ({ s with activeStreams := s.activeStreams - 1 }, .proceed)

abbrev LoopHistory := List ((Nat × LoopEvent) × Outcome)

section Step

/-- What one input does to the loop. -/
inductive LoopCase (conn : GrpcConnection) (s : Loop) : LoopEvent → Loop → Outcome → Prop
  | rejected {method path : String} {headers : HeaderMap}
      (hrejected : method = "POST" → path ≠ conn.expectedPath ∧ path ≠ conn.expectedMultiPath) :
      LoopCase conn s (.request method path) { s with heartbeat := s.heartbeat.onActivity }
        (.respond headers)
  | accepted {method path : String} (hmethod : method = "POST")
      (hpath : path = conn.expectedPath ∨ path = conn.expectedMultiPath) :
      LoopCase conn s (.request method path)
        { s with heartbeat := s.heartbeat.onActivity, idleTicks := 0,
                 activeStreams := s.activeStreams + 1 } .spawn
  | failed {text : String} :
      LoopCase conn s (.connectionError text) { s with left := true }
        (.leave (.error ("gRPC connection error: " ++ text)))
  | closed : LoopCase conn s .connectionEnd { s with left := true } (.leave (.ok ()))
  | alive {wake : Wake} {hb : H2Heartbeat} (hpoll : s.heartbeat.poll wake = some (hb, .ok ())) :
      LoopCase conn s (.heartbeat wake) { s with heartbeat := hb } .proceed
  | dead {wake : Wake} {hb : H2Heartbeat} {text : String}
      (hpoll : s.heartbeat.poll wake = some (hb, .error text)) :
      LoopCase conn s (.heartbeat wake) { s with heartbeat := hb, left := true }
        (.leave (.error ("gRPC " ++ text)))
  | busy (hactive : s.activeStreams ≠ 0) :
      LoopCase conn s .idleTick { s with idleTicks := 0 } .proceed
  | idle (hnone : s.activeStreams = 0) (hfew : s.idleTicks + 1 < 3) :
      LoopCase conn s .idleTick { s with idleTicks := s.idleTicks + 1 } .proceed
  | drain (hnone : s.activeStreams = 0) (hthird : s.idleTicks + 1 = 3) :
      LoopCase conn s .idleTick { s with idleTicks := s.idleTicks + 1 } .gracefulShutdown
  | elapsed (hnone : s.activeStreams = 0) (hmore : 3 < s.idleTicks + 1) :
      LoopCase conn s .idleTick { s with idleTicks := s.idleTicks + 1, left := true }
        (.leave (.ok ()))
  | data :
      LoopCase conn s .streamData { s with heartbeat := { s.heartbeat with activity := true } }
        .proceed
  | ended (hactive : s.activeStreams ≠ 0) :
      LoopCase conn s .streamEnd { s with activeStreams := s.activeStreams - 1 } .proceed

variable {conn : GrpcConnection} {s s' : Loop} {o : Outcome}

theorem loopCase_accept (conn : GrpcConnection) (s : Loop) (method path : String) :
    LoopCase conn s (.request method path) (s.accept conn method path).1
      (s.accept conn method path).2 := by
  unfold Loop.accept
  simp only
  split
  · rename_i hmethod
    exact .rejected fun hpost => absurd hpost hmethod
  · rename_i hmethod
    split
    · rename_i hpath
      exact .rejected fun _ => hpath
    · rename_i hpath
      exact .accepted (not_not.mp hmethod) (by simpa [or_iff_not_imp_left] using hpath)

theorem loopCase_idleTick (conn : GrpcConnection) (s : Loop) :
    LoopCase conn s .idleTick s.idleTick.1 s.idleTick.2 := by
  unfold Loop.idleTick
  split
  · rename_i hnone
    simp only
    split
    · rename_i hthird
      exact .drain hnone hthird
    · rename_i hthird
      split
      · rename_i hmore
        exact .elapsed hnone hmore
      · exact .idle hnone (by omega)
  · rename_i hactive
    exact .busy hactive

theorem loopCase_pollHeartbeat {wake : Wake} (h : s.pollHeartbeat wake = some (s', o)) :
    LoopCase conn s (.heartbeat wake) s' o := by
  obtain ⟨⟨hb, result⟩, hpoll, heq⟩ := Option.map_eq_some_iff.mp h
  cases result with
  | ok =>
      cases heq
      exact .alive hpoll
  | error text =>
      cases heq
      exact .dead hpoll

theorem loopCase_of_step {time : Nat} {event : LoopEvent}
    (h : conn.step s (time, event) = some (s', o)) :
    s.left = false ∧ LoopCase conn s event s' o := by
  unfold GrpcConnection.step at h
  split at h
  · cases h
  rename_i hrunning
  refine ⟨Bool.eq_false_iff.mpr hrunning, ?_⟩
  cases event with
  | request method path =>
      have hcase := loopCase_accept conn s method path
      rwa [Option.some.inj h] at hcase
  | connectionError text =>
      cases h
      exact .failed
  | connectionEnd =>
      cases h
      exact .closed
  | heartbeat wake => exact loopCase_pollHeartbeat h
  | idleTick =>
      have hcase := loopCase_idleTick conn s
      rwa [Option.some.inj h] at hcase
  | streamData =>
      cases h
      exact .data
  | streamEnd =>
      simp only at h
      split at h
      · cases h
      · rename_i hactive
        cases h
        exact .ended hactive

/-- Whatever its service is called, a connection comes up, and opens a stream for its two
paths only. -/
theorem withConfig_accepts (serviceName : String) (idleTimeout : Nat) :
    ∃ conn paths, withConfig serviceName idleTimeout = .ok conn ∧
      grpcPaths serviceName = .ok paths ∧ ∀ (s : Loop) (method path : String),
        (s.accept conn method path).2 = .spawn ↔
          method = "POST" ∧ (path = paths.1 ∨ path = paths.2) := by
  obtain ⟨paths, hpaths⟩ := grpcPaths_ok serviceName
  refine ⟨⟨idleTimeout, paths.1, paths.2⟩, paths, by simp [withConfig, hpaths], hpaths, ?_⟩
  intro s method path
  have hcase := loopCase_accept ⟨idleTimeout, paths.1, paths.2⟩ s method path
  generalize s.accept ⟨idleTimeout, paths.1, paths.2⟩ method path = step at hcase
  obtain ⟨s', o⟩ := step
  cases hcase with
  | rejected hrejected =>
      refine iff_of_false (by simp) ?_
      rintro ⟨hpost, hpath | hpath⟩
      · exact (hrejected hpost).1 hpath
      · exact (hrejected hpost).2 hpath
  | accepted hmethod hpath => exact iff_of_true rfl ⟨hmethod, hpath⟩

end Step

section HeartbeatRun

/-- What an input is for the heartbeat of the connection. -/
def LoopEvent.beat : LoopEvent → Heartbeat.Event
  | .request _ _ => .request
  | .heartbeat wake => .poll wake
  | .streamData => .data
  | _ => .cancelled

/-- The monitor has the heartbeat of the loop, and has not ended before it. -/
def Watches (s : Loop) (m : Monitor) : Prop :=
  m.heartbeat = s.heartbeat ∧ (m.ended = true → s.left = true)

theorem watches_step {conn : GrpcConnection} {s s' : Loop} {m : Monitor} {input : Nat × LoopEvent}
    {o : Outcome} (hwatches : Watches s m) (hstep : conn.step s input = some (s', o)) :
    ∃ m' o', Heartbeat.step m input.2.beat = some (m', o') ∧ Watches s' m' := by
  obtain ⟨hb, ended⟩ := m
  obtain ⟨rfl, hended⟩ : hb = s.heartbeat ∧ (ended = true → s.left = true) := hwatches
  obtain ⟨hrunning, hcase⟩ := loopCase_of_step hstep
  obtain rfl : ended = false := Bool.eq_false_iff.mpr fun h => by simp [hended h] at hrunning
  generalize input.2 = event at hcase
  cases hcase with
  | @alive wake hb hpoll =>
      refine ⟨⟨hb, false⟩, some (.ok ()), ?_, rfl, by simp⟩
      simp [Heartbeat.step, LoopEvent.beat, hpoll, failed]
  | @dead wake hb text hpoll =>
      refine ⟨⟨hb, true⟩, some (.error text), ?_, rfl, by simp⟩
      simp [Heartbeat.step, LoopEvent.beat, hpoll, failed]
  | _ => exact ⟨⟨_, false⟩, none, rfl, rfl, by simp⟩

/-- The heartbeat of a connection runs as one under a monitor. -/
theorem heartbeat_run {conn : GrpcConnection} {pingPong : Bool} {inputs : List (Nat × LoopEvent)}
    {s : Loop} {trace : LoopHistory}
    (hrun : run conn.step (.start pingPong) inputs = some (s, trace)) :
    ∃ m beats, run Heartbeat.step (start pingPong false) (inputs.map fun input => input.2.beat) =
        some (m, beats) ∧ Watches s m :=
  run_simulation (fun _ _ _ _ _ => watches_step) ⟨rfl, by simp [start]⟩ hrun

end HeartbeatRun

end TrojanServer.GrpcRun
