import TrojanServer.GrpcRun
import TrojanServer.Semaphore
import TrojanServer.Transport

/-!
The tasks of the server: the accept loop of `run_server`, one task for each connection that
it accepts, and one for each stream that a gRPC connection opens.  An action is a step of
one task, so that a run is an interleaving of them.  A task is named by its place in the
list of all tasks, which never shrinks.  The semaphore that limits the connections is a
parameter.
-/

namespace TrojanServer.ServerLoop

open TrojanServer.GrpcRun
open TrojanServer.Transport

structure ServerConfig where
  enableWs : Bool
  enableGrpc : Bool
  grpcServiceName : String
  cert : Option String
  key : Option String
  idleTimeout : Nat
  maxConnections : Nat

def buildTransportConfig (config : ServerConfig) : TransportType × Bool :=
  let transportType :=
    if config.enableGrpc then .grpc
    else if config.enableWs then .webSocket
    else .tcp
  (transportType, config.cert.isSome && config.key.isSome)

inductive Phase where
  /-- Accepted; the loop awaits the permit for it. -/
  | acquiring
  | tlsHandshake
  /-- The WebSocket or the HTTP/2 handshake. -/
  | upgrade
  | session
  | grpc (conn : GrpcConnection) (loop : Loop)
  /-- Out of its loop, with the streams cancelled and the permit not dropped yet. -/
  | closing
  /-- Spawned by the connection, and not polled yet. -/
  | stream (parent : Nat)
  | streamSession (parent : Nat)
  /-- The handler is dropped, and the permit with it; the guard that counts the stream is not. -/
  | streamClosing (parent : Nat)
  | ended
  deriving DecidableEq

def Phase.holdsPermit : Phase → Bool
  | .acquiring | .stream _ | .streamClosing _ | .ended => false
  | .tlsHandshake | .upgrade | .session | .grpc _ _ | .closing | .streamSession _ => true

def Phase.isStreamOf (parent : Nat) : Phase → Bool
  | .stream p | .streamSession p | .streamClosing p => p = parent
  | _ => false

/-- `accepting` until `main` drops the accept loop. -/
structure Server (σ : Type) where
  connLimiter : Option σ
  tasks : List Phase
  accepting : Bool

inductive Action where
  | accept
  | acceptError
  /-- `main` drops `run_server`, and with it the permit it may be waiting for. -/
  | stop
  | acquired (task : Nat)
  | tlsHandshake (task : Nat) (ok : Bool)
  /-- `none` for a handshake that failed or timed out; an HTTP/2 connection that comes up
  says whether it has a `PingPong`. -/
  | upgrade (task : Nat) (result : Option Bool)
  | sessionEnd (task : Nat)
  | h2 (task time : Nat) (event : LoopEvent)
  | connectionClosed (task : Nat)
  | streamPoll (task : Nat)
  | streamEnd (task : Nat)
  | streamCancelled (task : Nat)
  | streamClosed (task time : Nat)
  deriving DecidableEq

inductive Outcome where
  | quiet
  /-- `max_connections reached` -/
  | refused
  | connection (outcome : GrpcRun.Outcome)
  deriving DecidableEq

variable {σ : Type} (semaphore : SemaphoreApi σ Nat) (config : ServerConfig)

/-- No limiter stands for no limit. -/
def Server.start : Server σ where
  connLimiter :=
    if 0 < config.maxConnections then some (semaphore.new config.maxConnections) else none
  tasks := []
  accepting := true

/-- Where `accept_connection` starts. -/
def acceptConnection : Phase :=
  match (buildTransportConfig config).1 with
  | .tcp => .session
  | .webSocket | .grpc => .upgrade

/-- What a connection does with its handshake done. -/
def upgraded (pingPong : Bool) : Phase :=
  match (buildTransportConfig config).1 with
  | .tcp | .webSocket => .session
  | .grpc =>
      match withConfig config.grpcServiceName config.idleTimeout with
      | .ok conn => .grpc conn (.start pingPong)
      | .error _ => .closing

namespace Server

variable (s : Server σ)

def enter (task : Nat) (phase : Phase) : Server σ :=
  { s with tasks := s.tasks.set task phase }

/-- A task goes on without the permit that it holds. -/
def dropPermit (task : Nat) (phase : Phase) : Server σ :=
  { s with connLimiter := s.connLimiter.map fun limiter => semaphore.release limiter task
           tasks := s.tasks.set task phase }

def spawn (phase : Phase) : Server σ := { s with tasks := s.tasks ++ [phase] }

/-- The counter is shared with the loop of the connection, which may be gone. -/
def countOut (parent time : Nat) : Server σ :=
  match s.tasks[parent]? with
  | some (.grpc conn loop) =>
      match conn.step loop (time, .streamEnd) with
      | some (loop', _) => s.enter parent (.grpc conn loop')
      | none => s
  | _ => s

/-- Whether the permit that the accept loop asked for is there. -/
def permitted (task : Nat) : Bool :=
  match s.connLimiter with
  | some limiter => semaphore.granted limiter task
  | none => true

def accept : Server σ :=
  { s with
    connLimiter := s.connLimiter.map fun limiter => semaphore.acquire limiter s.tasks.length
    tasks := s.tasks ++ [.acquiring] }

def stop : Server σ :=
  match s.tasks.findIdx? fun phase => decide (phase = .acquiring) with
  | none => { s with accepting := false }
  | some task =>
      { connLimiter := s.connLimiter.map fun limiter => semaphore.cancel limiter task
        tasks := s.tasks.set task .ended
        accepting := false }

/-- The end of a stream is a step of its own task. -/
def runH2 (task time : Nat) (event : LoopEvent) (conn : GrpcConnection) (loop : Loop) :
    Option (Server σ × Outcome) :=
  if event = .streamEnd then none
  else
    (conn.step loop (time, event)).map fun polled =>
      match polled.2 with
      | .leave result => (s.enter task .closing, .connection (.leave result))
      | .spawn => ((s.enter task (.grpc conn polled.1)).spawn (.stream task), .connection .spawn)
      | outcome => (s.enter task (.grpc conn polled.1), .connection outcome)

def pollStream (task parent : Nat) : Server σ × Outcome :=
  match s.connLimiter with
  | none => (s.enter task (.streamSession parent), .quiet)
  | some limiter =>
      match semaphore.tryAcquire limiter task with
      | some limiter' =>
          ({ s with connLimiter := some limiter' }.enter task (.streamSession parent), .quiet)
      | none => (s.enter task (.streamClosing parent), .refused)

/-- Whether the token of the streams of a connection is cancelled. -/
def cancelled (parent : Nat) : Bool :=
  decide (s.tasks[parent]? = some .closing ∨ s.tasks[parent]? = some .ended)

end Server

def step (s : Server σ) : Action → Option (Server σ × Outcome)
  | .accept =>
      if s.accepting ∧ .acquiring ∉ s.tasks then some (s.accept semaphore, .quiet) else none
  | .acceptError => if s.accepting ∧ .acquiring ∉ s.tasks then some (s, .quiet) else none
  | .stop => if s.accepting then some (s.stop semaphore, .quiet) else none
  | .acquired task =>
      if s.tasks[task]? = some .acquiring ∧ s.permitted semaphore task then
        if (buildTransportConfig config).2 then some (s.enter task .tlsHandshake, .quiet)
        else some (s.enter task (acceptConnection config), .quiet)
      else none
  | .tlsHandshake task ok =>
      if s.tasks[task]? = some .tlsHandshake then
        if ok then some (s.enter task (acceptConnection config), .quiet)
        else some (s.dropPermit semaphore task .ended, .quiet)
      else none
  | .upgrade task result =>
      if s.tasks[task]? = some .upgrade then
        match result with
        | none => some (s.dropPermit semaphore task .ended, .quiet)
        | some pingPong => some (s.enter task (upgraded config pingPong), .quiet)
      else none
  | .sessionEnd task =>
      if s.tasks[task]? = some .session then some (s.dropPermit semaphore task .ended, .quiet)
      else none
  | .h2 task time event =>
      match s.tasks[task]? with
      | some (.grpc conn loop) => s.runH2 task time event conn loop
      | _ => none
  | .connectionClosed task =>
      if s.tasks[task]? = some .closing then some (s.dropPermit semaphore task .ended, .quiet)
      else none
  | .streamPoll task =>
      match s.tasks[task]? with
      | some (.stream parent) => some (s.pollStream semaphore task parent)
      | _ => none
  | .streamEnd task =>
      match s.tasks[task]? with
      | some (.streamSession parent) =>
          some (s.dropPermit semaphore task (.streamClosing parent), .quiet)
      | _ => none
  | .streamCancelled task =>
      match s.tasks[task]? with
      | some (.stream parent) =>
          if s.cancelled parent then some (s.enter task (.streamClosing parent), .quiet)
          else none
      | some (.streamSession parent) =>
          if s.cancelled parent then
            some (s.dropPermit semaphore task (.streamClosing parent), .quiet)
          else none
      | _ => none
  | .streamClosed task time =>
      match s.tasks[task]? with
      | some (.streamClosing parent) => some ((s.enter task .ended).countOut parent time, .quiet)
      | _ => none

abbrev History := List (Action × Outcome)

/-- The server along one schedule of its tasks. -/
def runServer (actions : List Action) : Option (Server σ × History) :=
  StepMachine.run (step semaphore config) (.start semaphore config) actions

section Step

/-- What one action does to the tasks and to the limiter. -/
inductive StepCase (s : Server σ) : Action → Server σ → Outcome → Prop
  | accepted (hidle : .acquiring ∉ s.tasks) : StepCase s .accept (s.accept semaphore) .quiet
  | acceptFailed : StepCase s .acceptError s .quiet
  | stoppedIdle : StepCase s .stop { s with accepting := false } .quiet
  | stoppedWaiting {task : Nat} (htask : s.tasks[task]? = some .acquiring) :
      StepCase s .stop
        { connLimiter := s.connLimiter.map fun limiter => semaphore.cancel limiter task
          tasks := s.tasks.set task .ended
          accepting := false } .quiet
  | acquired {task : Nat} {phase : Phase} (htask : s.tasks[task]? = some .acquiring)
      (hpermit : s.permitted semaphore task = true)
      (hphase : phase = .tlsHandshake ∨ phase = acceptConnection config) :
      StepCase s (.acquired task) (s.enter task phase) .quiet
  | secured {task : Nat} (htask : s.tasks[task]? = some .tlsHandshake) :
      StepCase s (.tlsHandshake task true) (s.enter task (acceptConnection config)) .quiet
  | upgraded {task : Nat} {pingPong : Bool} (htask : s.tasks[task]? = some .upgrade) :
      StepCase s (.upgrade task (some pingPong)) (s.enter task (upgraded config pingPong)) .quiet
  | finished {action : Action} {task : Nat} {phase : Phase} (htask : s.tasks[task]? = some phase)
      (hphase : phase ∈ [.tlsHandshake, .upgrade, .session, .closing])
      (haction : action ∈ [.tlsHandshake task false, .upgrade task none, .sessionEnd task,
        .connectionClosed task]) :
      StepCase s action (s.dropPermit semaphore task .ended) .quiet
  | polled {task time : Nat} {event : LoopEvent} {conn : GrpcConnection} {loop loop' : Loop}
      {outcome : GrpcRun.Outcome} (htask : s.tasks[task]? = some (.grpc conn loop))
      (hevent : event ≠ .streamEnd) (hloop : conn.step loop (time, event) = some (loop', outcome))
      (hstay : ∀ result, outcome ≠ .leave result) (hspawn : outcome ≠ .spawn) :
      StepCase s (.h2 task time event) (s.enter task (.grpc conn loop')) (.connection outcome)
  | spawned {task time : Nat} {event : LoopEvent} {conn : GrpcConnection} {loop loop' : Loop}
      (htask : s.tasks[task]? = some (.grpc conn loop))
      (hloop : conn.step loop (time, event) = some (loop', .spawn)) :
      StepCase s (.h2 task time event) ((s.enter task (.grpc conn loop')).spawn (.stream task))
        (.connection .spawn)
  | left {task time : Nat} {event : LoopEvent} {conn : GrpcConnection} {loop loop' : Loop}
      {result : Except String Unit} (htask : s.tasks[task]? = some (.grpc conn loop))
      (hloop : conn.step loop (time, event) = some (loop', .leave result)) :
      StepCase s (.h2 task time event) (s.enter task .closing) (.connection (.leave result))
  | unlimited {task parent : Nat} (htask : s.tasks[task]? = some (.stream parent))
      (hnone : s.connLimiter = none) :
      StepCase s (.streamPoll task) (s.enter task (.streamSession parent)) .quiet
  | admitted {task parent : Nat} {limiter limiter' : σ}
      (htask : s.tasks[task]? = some (.stream parent)) (hlimiter : s.connLimiter = some limiter)
      (htry : semaphore.tryAcquire limiter task = some limiter') :
      StepCase s (.streamPoll task)
        ({ s with connLimiter := some limiter' }.enter task (.streamSession parent)) .quiet
  | refused {task parent : Nat} {limiter : σ}
      (htask : s.tasks[task]? = some (.stream parent)) (hlimiter : s.connLimiter = some limiter)
      (htry : semaphore.tryAcquire limiter task = none) :
      StepCase s (.streamPoll task) (s.enter task (.streamClosing parent)) .refused
  | abandoned {task parent : Nat} (htask : s.tasks[task]? = some (.stream parent)) :
      StepCase s (.streamCancelled task) (s.enter task (.streamClosing parent)) .quiet
  | dropped {action : Action} {task parent : Nat}
      (htask : s.tasks[task]? = some (.streamSession parent))
      (haction : action ∈ [.streamEnd task, .streamCancelled task]) :
      StepCase s action (s.dropPermit semaphore task (.streamClosing parent)) .quiet
  | counted {task parent time : Nat} (htask : s.tasks[task]? = some (.streamClosing parent)) :
      StepCase s (.streamClosed task time) ((s.enter task .ended).countOut parent time) .quiet

variable {semaphore : SemaphoreApi σ Nat} {config : ServerConfig} {s s' : Server σ}
  {action : Action} {o : Outcome}

theorem stepCase_runH2 {task time : Nat} {event : LoopEvent} {conn : GrpcConnection} {loop : Loop}
    (htask : s.tasks[task]? = some (.grpc conn loop))
    (h : s.runH2 task time event conn loop = some (s', o)) :
    StepCase semaphore config s (.h2 task time event) s' o := by
  unfold Server.runH2 at h
  split at h
  · cases h
  · rename_i hevent
    obtain ⟨⟨loop', outcome⟩, hloop, heq⟩ := Option.map_eq_some_iff.mp h
    cases outcome with
    | leave result =>
        cases heq
        exact .left htask hloop
    | spawn =>
        cases heq
        exact .spawned htask hloop
    | _ =>
        cases heq
        exact .polled htask hevent hloop (by simp) (by simp)

theorem stepCase_pollStream {task parent : Nat} (htask : s.tasks[task]? = some (.stream parent)) :
    StepCase semaphore config s (.streamPoll task) (s.pollStream semaphore task parent).1
      (s.pollStream semaphore task parent).2 := by
  unfold Server.pollStream
  split
  · rename_i hnone
    exact .unlimited htask hnone
  · rename_i limiter hlimiter
    split
    · rename_i limiter' htry
      exact .admitted htask hlimiter htry
    · rename_i htry
      exact .refused htask hlimiter htry

theorem stepCase_stop (s : Server σ) :
    StepCase semaphore config s .stop (s.stop semaphore) .quiet := by
  unfold Server.stop
  split
  · exact .stoppedIdle
  · rename_i task hfound
    obtain ⟨htask, hphase, -⟩ := List.findIdx?_eq_some_iff_getElem.mp hfound
    refine .stoppedWaiting ?_
    rw [List.getElem?_eq_getElem htask, of_decide_eq_true hphase]

theorem stepCase_of_step (h : step semaphore config s action = some (s', o)) :
    StepCase semaphore config s action s' o := by
  cases action with
  | accept =>
      obtain ⟨⟨-, hidle⟩, h⟩ := Option.ite_none_right_eq_some.mp h
      cases h
      exact .accepted hidle
  | acceptError =>
      obtain ⟨-, h⟩ := Option.ite_none_right_eq_some.mp h
      cases h
      exact .acceptFailed
  | stop =>
      obtain ⟨-, h⟩ := Option.ite_none_right_eq_some.mp h
      cases h
      exact stepCase_stop s
  | acquired task =>
      obtain ⟨⟨htask, hpermit⟩, h⟩ := Option.ite_none_right_eq_some.mp h
      split at h
      · cases h
        exact .acquired htask hpermit (.inl rfl)
      · cases h
        exact .acquired htask hpermit (.inr rfl)
  | tlsHandshake task ok =>
      obtain ⟨htask, h⟩ := Option.ite_none_right_eq_some.mp h
      cases ok with
      | true =>
          cases h
          exact .secured htask
      | false =>
          cases h
          exact .finished htask (by simp) (by simp)
  | upgrade task result =>
      obtain ⟨htask, h⟩ := Option.ite_none_right_eq_some.mp h
      cases result with
      | none =>
          cases h
          exact .finished htask (by simp) (by simp)
      | some pingPong =>
          cases h
          exact .upgraded htask
  | sessionEnd task =>
      obtain ⟨htask, h⟩ := Option.ite_none_right_eq_some.mp h
      cases h
      exact .finished htask (by simp) (by simp)
  | h2 task time event =>
      simp only [step] at h
      split at h
      · rename_i conn loop htask
        exact stepCase_runH2 htask h
      · cases h
  | connectionClosed task =>
      obtain ⟨htask, h⟩ := Option.ite_none_right_eq_some.mp h
      cases h
      exact .finished htask (by simp) (by simp)
  | streamPoll task =>
      simp only [step] at h
      split at h
      · rename_i parent htask
        have hcase : StepCase semaphore config s _ _ _ := stepCase_pollStream htask
        rwa [Option.some.inj h] at hcase
      · cases h
  | streamEnd task =>
      simp only [step] at h
      split at h
      · rename_i parent htask
        cases h
        exact .dropped htask (by simp)
      · cases h
  | streamCancelled task =>
      simp only [step] at h
      split at h
      · rename_i parent htask
        obtain ⟨-, h⟩ := Option.ite_none_right_eq_some.mp h
        cases h
        exact .abandoned htask
      · rename_i parent htask
        obtain ⟨-, h⟩ := Option.ite_none_right_eq_some.mp h
        cases h
        exact .dropped htask (by simp)
      · cases h
  | streamClosed task time =>
      simp only [step] at h
      split at h
      · rename_i parent htask
        cases h
        exact .counted htask
      · cases h

end Step

end TrojanServer.ServerLoop
