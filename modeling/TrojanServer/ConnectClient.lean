import TrojanServer.ConnectUpload
import TrojanServer.Hosted
import TrojanServer.RelayHalfClose
import TrojanServer.Transport

namespace TrojanServer.ConnectClient

open TrojanServer.AsyncIo
open TrojanServer.ConnectSession
open TrojanServer.Hosted
open TrojanServer.Protocol
open TrojanServer.Relay
open TrojanServer.RelayIntegrity
open TrojanServer.RequestReader
open TrojanServer.StepMachine
open TrojanServer.Transport

/-- The calls of one poll of the relay that reach the client, in their order. -/
def relayCalls (transportType : TransportType) (calls : PollCalls) : List IoCall :=
  calls.up.filter isRead ++
    (calls.down.filter fun call => !isRead call).map
      (NoHalfClose.forward transportType.halfClose)

/-- `room` is what `read_buf` has free in the buffer of the request. -/
def clientCalls (transportType : TransportType) (room : Nat) :
    ConnectSession.Event → List IoCall
  | .read result => [.pollRead room (.ready result)]
  | .poll calls => relayCalls transportType calls
  | _ => []

inductive Event where
  | session (event : ConnectSession.Event) (room : Nat)
  /-- A poll of the read of the request that has to wait. -/
  | waiting (room : Nat)

structure Output where
  effects : List Effect
  calls : List IoCall

/-- There is nothing left to do but to close the client. -/
def isOver : Session → Bool
  | .closed => true
  | .relaying _ relay => relay.returned.isSome
  | _ => false

/-- The request that turns out to be one for the other kind of session. -/
def isUdpRequest (cfg : RelayConfig) : Session → ConnectSession.Event → Bool
  | .reading reader, .read result =>
      match reader.step cfg.bufferSize result with
      | some (⟨_, some (.request request)⟩, _) => decide (request.cmd = .udpAssociate)
      | _ => false
  | _, _ => false

def isReading : Session → Bool
  | .reading _ => true
  | _ => false

def step (cfg : RelayConfig) (transportType : TransportType) (s : Session) :
    Event → Option (Session × Output)
  | .session event room =>
      if isUdpRequest cfg s event = false ∧ cfg.bufferSize ≤ room then
        (s.step cfg event).map fun r => (r.1, ⟨r.2, clientCalls transportType room event⟩)
      else none
  | .waiting room =>
      if isReading s ∧ cfg.bufferSize ≤ room then some (s, ⟨[], [.pollRead room .pending]⟩)
      else none

/-- A CONNECT session served by a transport. -/
def connectOn {τ α κ : Type} (cfg : RelayConfig) (transportType : TransportType)
    (serve : τ → IoCall × α → Option (τ × κ)) :
    Host Session τ → Hosted.Event Event α → Option (Host Session τ × Hosted.Output Output α κ) :=
  hostStep (step cfg transportType) Output.calls isOver serve

abbrev Trace := List (Event × Output)

/-- What the session saw. -/
def seen (trace : Trace) : ConnectSession.Trace :=
  trace.filterMap fun entry =>
    match entry.1 with
    | .session event _ => some (event, entry.2.effects)
    | _ => none

def made (trace : Trace) : List IoCall := trace.flatMap fun entry => entry.2.calls

/-- The polls of the relay. -/
def relayed (trace : Trace) : Relay.Trace := relayTrace (seen trace)

section Step

variable {cfg : RelayConfig} {transportType : TransportType} {s s' : Session} {event : Event}
  {o : Output}

inductive StepCase (cfg : RelayConfig) (transportType : TransportType) (s : Session) :
    Event → Session → Output → Prop
  | session {event : ConnectSession.Event} {room : Nat} {s' : Session} {effects : List Effect}
      (hroom : cfg.bufferSize ≤ room) (hstep : s.step cfg event = some (s', effects)) :
      StepCase cfg transportType s (.session event room) s'
        ⟨effects, clientCalls transportType room event⟩
  | waiting {room : Nat} (hreading : isReading s = true) (hroom : cfg.bufferSize ≤ room) :
      StepCase cfg transportType s (.waiting room) s ⟨[], [.pollRead room .pending]⟩

theorem stepCase_of_step (h : step cfg transportType s event = some (s', o)) :
    StepCase cfg transportType s event s' o := by
  cases event with
  | session event room =>
      obtain ⟨⟨-, hroom⟩, h⟩ := Option.ite_none_right_eq_some.mp h
      obtain ⟨⟨session, effects⟩, hstep, heq⟩ := Option.map_eq_some_iff.mp h
      cases heq
      exact .session hroom hstep
  | waiting room =>
      obtain ⟨⟨hreading, hroom⟩, heq⟩ := Option.ite_none_right_eq_some.mp h
      cases heq
      exact .waiting hreading hroom

theorem seen_snoc_session (trace : Trace) (event : ConnectSession.Event) (room : Nat)
    (o : Output) :
    seen (trace ++ [(.session event room, o)]) = seen trace ++ [(event, o.effects)] := by
  simp [seen]

theorem seen_snoc_waiting (trace : Trace) (room : Nat) (o : Output) :
    seen (trace ++ [(.waiting room, o)]) = seen trace := by
  simp [seen]

@[simp] theorem made_snoc (trace : Trace) (event : Event) (o : Output) :
    made (trace ++ [(event, o)]) = made trace ++ o.calls := by
  simp [made]

end Step

section Rooms

open TrojanServer.PollCopy
open TrojanServer.PollCopy.DirectionalBuffer

theorem hasRoom_of_copyCase {d : DirectionalBuffer} {point : CopyPoint} {call : IoCall}
    {out : CopyStep} (hcase : CopyCase d point call out) (hloc : d.Located point)
    (hlength : 0 < d.buf.length) : HasRoom call := by
  rintro room result rfl
  cases hcase with
  | probedEof | probed | probeFailed | probePending =>
      have hcap := hloc.2
      omega
  | _ => exact hlength

theorem hasRoom_of_copyRun {d d' : DirectionalBuffer} {point : CopyPoint} {calls : List IoCall}
    {result : Poll (Except IoError Unit)} (hrun : CopyRun d point calls d' result)
    (hwf : d.WellFormed) (hloc : d.Located point) (hlength : 0 < d.buf.length) :
    ∀ call ∈ calls, HasRoom call := by
  induction hrun with
  | last hcase =>
      intro call hcall
      rw [List.mem_singleton.mp hcall]
      exact hasRoom_of_copyCase hcase hloc hlength
  | more hcase _ ih =>
      have hspec := hcase.spec hwf hloc
      intro call hcall
      rcases List.mem_cons.mp hcall with rfl | hcall
      · exact hasRoom_of_copyCase hcase hloc hlength
      · have hlength' := hlength
        rw [← hspec.length] at hlength'
        exact ih hspec.wellFormed (hcase.located hwf hloc) hlength' call hcall

theorem hasRoom_of_pollDirection {d d' : DirectionalBuffer} {calls : List IoCall}
    {error : Option IoError} (h : pollDirection d calls = some (d', error)) (hwf : d.WellFormed)
    (hlength : 0 < d.buf.length) : ∀ call ∈ calls, HasRoom call := by
  rcases RelayHalfClose.pollDirection_cases h with ⟨-, rfl⟩ | ⟨result, hpoll⟩
  · simp
  · have hwf' : { d with flushOk := false }.WellFormed :=
      ⟨hwf.pos_le_cap, hwf.cap_le_length, hwf.done_drained⟩
    exact hasRoom_of_copyRun (copyRun_of_pollCopyFrom hpoll) hwf'
      (located_loopHead hwf.pos_le_cap) hlength

/-- Nothing follows a call that fails. -/
theorem pairwise_of_copyRun {d d' : DirectionalBuffer} {point : CopyPoint} {calls : List IoCall}
    {result : Poll (Except IoError Unit)} (hrun : CopyRun d point calls d' result) :
    calls.Pairwise fun call _ => call.isFailure = false := by
  induction hrun with
  | last => exact List.pairwise_singleton _ _
  | more hcase _ ih =>
      refine List.Pairwise.cons (fun _ _ => ?_) ih
      by_contra hfails
      obtain ⟨_, _, hout⟩ := hcase.isFailure_iff.mp (by simpa using hfails)
      cases hout

theorem pairwise_of_pollDirection {d d' : DirectionalBuffer} {calls : List IoCall}
    {error : Option IoError} (h : pollDirection d calls = some (d', error)) :
    calls.Pairwise fun call _ => call.isFailure = false := by
  rcases RelayHalfClose.pollDirection_cases h with ⟨-, rfl⟩ | ⟨result, hpoll⟩
  · exact .nil
  · exact pairwise_of_copyRun (copyRun_of_pollCopyFrom hpoll)

end Rooms

section Calls

theorem returned_of_not_isRead {call : IoCall} (h : isRead call = false) : call.returned = [] := by
  cases call <;> first | rfl | cases h

theorem accepted_of_isRead {call : IoCall} (h : isRead call = true) : call.accepted = [] := by
  cases call <;> first | rfl | cases h

theorem forward_cases (halfClose : Bool) (call : IoCall) :
    NoHalfClose.forward halfClose call = call ∨
      ∃ result, call = .pollShutdown result ∧
        NoHalfClose.forward halfClose call = .pollFlush result := by
  cases call with
  | pollShutdown result =>
      cases halfClose
      · exact .inr ⟨result, rfl, rfl⟩
      · exact .inl rfl
  | _ => exact .inl rfl

theorem accepted_forward (halfClose : Bool) (call : IoCall) :
    (NoHalfClose.forward halfClose call).accepted = call.accepted := by
  rcases forward_cases halfClose call with hsame | ⟨result, rfl, hflush⟩
  · rw [hsame]
  · rw [hflush]
    rfl

theorem isRead_forward (halfClose : Bool) (call : IoCall) :
    isRead (NoHalfClose.forward halfClose call) = isRead call := by
  rcases forward_cases halfClose call with hsame | ⟨result, rfl, hflush⟩
  · rw [hsame]
  · rw [hflush]
    rfl

theorem returnedBytes_filter (calls : List IoCall) :
    returnedBytes (calls.filter isRead) = returnedBytes calls := by
  induction calls with
  | nil => rfl
  | cons call calls ih =>
      by_cases hread : isRead call = true
      · rw [List.filter_cons_of_pos hread, returnedBytes_cons, returnedBytes_cons, ih]
      · rw [List.filter_cons_of_neg hread, ih, returnedBytes_cons,
          returned_of_not_isRead (Bool.eq_false_iff.mpr hread), List.nil_append]

theorem acceptedBytes_filter (calls : List IoCall) :
    acceptedBytes (calls.filter isRead) = [] :=
  List.flatMap_eq_nil_iff.mpr fun _ hcall => accepted_of_isRead (List.mem_filter.mp hcall).2

theorem acceptedBytes_forward (halfClose : Bool) (calls : List IoCall) :
    acceptedBytes ((calls.filter fun call => !isRead call).map (NoHalfClose.forward halfClose)) =
      acceptedBytes calls := by
  induction calls with
  | nil => rfl
  | cons call calls ih =>
      by_cases hread : isRead call = true
      · rw [List.filter_cons_of_neg (by simp [hread]), ih, acceptedBytes_cons,
          accepted_of_isRead hread, List.nil_append]
      · rw [List.filter_cons_of_pos (by simp [hread]), List.map_cons, acceptedBytes_cons, ih,
          accepted_forward, acceptedBytes_cons]

theorem returnedBytes_forward (halfClose : Bool) (calls : List IoCall) :
    returnedBytes ((calls.filter fun call => !isRead call).map (NoHalfClose.forward halfClose)) =
      [] := by
  refine List.flatMap_eq_nil_iff.mpr fun call hcall => returned_of_not_isRead ?_
  obtain ⟨inner, hinner, rfl⟩ := List.mem_map.mp hcall
  rw [isRead_forward]
  simpa using (List.mem_filter.mp hinner).2

variable (transportType : TransportType) (room : Nat)

theorem returnedBytes_clientCalls (event : ConnectSession.Event) :
    returnedBytes (clientCalls transportType room event) = event.received := by
  cases event with
  | read result => cases result <;> simp [clientCalls, IoCall.returned, Event.received]
  | poll calls =>
      simp [clientCalls, relayCalls, returnedBytes_filter, returnedBytes_forward,
        Event.received]
  | _ => rfl

/-- The calls of the downlink in an event of the session. -/
def downOf : ConnectSession.Event → List IoCall
  | .poll calls => calls.down
  | _ => []

def upOf : ConnectSession.Event → List IoCall
  | .poll calls => calls.up
  | _ => []

theorem acceptedBytes_clientCalls (event : ConnectSession.Event) :
    acceptedBytes (clientCalls transportType room event) = acceptedBytes (downOf event) := by
  cases event with
  | poll calls =>
      simp [clientCalls, relayCalls, acceptedBytes_filter, acceptedBytes_forward, downOf]
  | _ => rfl

theorem downCalls_snoc_event (trace : ConnectSession.Trace) (event : ConnectSession.Event)
    (effects : List Effect) :
    downCalls (relayTrace (trace ++ [(event, effects)])) =
      downCalls (relayTrace trace) ++ downOf event := by
  cases event with
  | poll calls => rw [relayTrace_snoc_poll, downCalls_snoc, downOf]
  | _ =>
      rw [relayTrace_snoc_other _ _ (by simp)]
      exact (List.append_nil _).symm

theorem upCalls_snoc_event (trace : ConnectSession.Trace) (event : ConnectSession.Event)
    (effects : List Effect) :
    upCalls (relayTrace (trace ++ [(event, effects)])) =
      upCalls (relayTrace trace) ++ upOf event := by
  cases event with
  | poll calls => rw [relayTrace_snoc_poll, upCalls_snoc, upOf]
  | _ =>
      rw [relayTrace_snoc_other _ _ (by simp)]
      exact (List.append_nil _).symm

/-- An end of file that the relay sees is one that the client's transport reported. -/
theorem isEof_clientCalls {event : ConnectSession.Event}
    (h : (upOf event).any IoCall.isEof = true) :
    (clientCalls transportType room event).any IoCall.isEof = true := by
  cases event with
  | poll calls =>
      obtain ⟨call, hcall, heof⟩ := List.any_eq_true.mp h
      refine List.any_eq_true.mpr ⟨call, List.mem_append_left _ ?_, heof⟩
      refine List.mem_filter.mpr ⟨hcall, ?_⟩
      cases call <;> first | rfl | cases heof
  | _ => cases h

end Calls

section Invariant

variable {cfg : RelayConfig} {transportType : TransportType} {s s' : Session} {trace : Trace}
  {event : Event} {o : Output}

theorem not_shutdown_of_clientCalls (hhalf : transportType.halfClose = false) {room : Nat}
    {event : ConnectSession.Event} :
    ∀ call ∈ clientCalls transportType room event, ¬ IsShutdown call := by
  rintro call hcall ⟨result, rfl⟩
  cases event with
  | poll calls =>
      rcases List.mem_append.mp hcall with hread | hwrite
      · exact absurd (List.mem_filter.mp hread).2 (by simp [isRead])
      · obtain ⟨inner, -, hforward⟩ := List.mem_map.mp hwrite
        rw [hhalf] at hforward
        cases inner <;> cases hforward
  | _ => simp [clientCalls] at hcall

theorem hasRoom_of_session {trace : ConnectSession.Trace} {session session' : Session}
    {inner : ConnectSession.Event} {effects : List Effect} {room : Nat}
    (hinv : SessionInv cfg trace session) (hbuffer : 0 < cfg.bufferSize)
    (hroom : cfg.bufferSize ≤ room) (hstep : session.step cfg inner = some (session', effects)) :
    ∀ call ∈ clientCalls transportType room inner, HasRoom call := by
  intro call hcall
  cases session_cases hstep with
  | read =>
      rw [List.mem_singleton.mp hcall]
      rintro _ _ ⟨⟩
      exact Nat.lt_of_lt_of_le hbuffer hroom
  | poll hpoll =>
      obtain ⟨buf, n, hphase⟩ := hinv
      obtain ⟨-, hcase⟩ := RelayFuture.step_cases hpoll
      obtain ⟨⟨error, hup⟩, -⟩ := buffers_cases hcase
      rcases List.mem_append.mp hcall with hread | hwrite
      · have hlength : 0 < cfg.bufferSize := hbuffer
        have hup' := hphase.relay.up
        refine hasRoom_of_pollDirection hup hup'.wellFormed ?_ call (List.mem_filter.mp hread).1
        rw [hup'.length]
        exact hlength
      · obtain ⟨inner, hinner, rfl⟩ := List.mem_map.mp hwrite
        rintro room' result heq
        rcases forward_cases transportType.halfClose inner with hsame | ⟨_, -, hflush⟩
        · rw [hsame] at heq
          subst heq
          exact absurd (List.mem_filter.mp hinner).2 (by simp [isRead])
        · cases hflush.symm.trans heq
  | _ => simp [clientCalls] at hcall

theorem isRead_of_mem_relayCalls {polled : PollCalls} {call : IoCall}
    (hcall : call ∈ relayCalls transportType polled) (hread : isRead call = true) :
    call ∈ polled.up := by
  rcases List.mem_append.mp hcall with hup | hdown
  · exact (List.mem_filter.mp hup).1
  · obtain ⟨inner, hinner, rfl⟩ := List.mem_map.mp hdown
    rw [isRead_forward] at hread
    exact absurd (List.mem_filter.mp hinner).2 (by simp [hread])

theorem lastRead_relayCalls {polled : PollCalls}
    (h : polled.up.Pairwise fun call _ => call.isFailure = false) :
    (relayCalls transportType polled).Pairwise LastRead := by
  have hdown : ∀ call ∈ (polled.down.filter fun call => !isRead call).map
      (NoHalfClose.forward transportType.halfClose), isRead call = false := by
    intro call hcall
    obtain ⟨inner, hinner, rfl⟩ := List.mem_map.mp hcall
    rw [isRead_forward]
    simpa using (List.mem_filter.mp hinner).2
  refine List.pairwise_append.mpr ⟨?_, ?_, fun _ _ call' hcall' _ => hdown call' hcall'⟩
  · refine (h.filter isRead).imp ?_
    intro call call' hok herror
    have hfails := IoCall.isFailure_of_isError (Bool.and_eq_true_iff.mp herror).2
    exact absurd hok (by simp [hfails])
  · refine List.pairwise_of_forall_mem_list fun call _ call' hcall' _ => hdown call' hcall'

/-- A read that fails ends the session. -/
theorem reads_of_session {trace : ConnectSession.Trace} {session session' : Session}
    {inner : ConnectSession.Event} {effects : List Effect} {room : Nat}
    (hinv : SessionInv cfg trace session)
    (hstep : session.step cfg inner = some (session', effects)) :
    (clientCalls transportType room inner).Pairwise LastRead ∧
      ∀ call ∈ clientCalls transportType room inner, isReadError call = true →
        isOver session' = true := by
  cases session_cases hstep with
  | read hread =>
      refine ⟨List.pairwise_singleton _ _, ?_⟩
      intro call hcall herror
      rw [List.mem_singleton.mp hcall] at herror
      rename_i r r' result
      cases result with
      | ok bytes => cases herror
      | error e =>
          unfold Reader.step at hread
          rw [hinv.1] at hread
          cases hread
          rfl
  | poll hpoll =>
      obtain ⟨buf, n, hphase⟩ := hinv
      obtain ⟨-, hcase⟩ := RelayFuture.step_cases hpoll
      obtain ⟨⟨error, hup⟩, -⟩ := buffers_cases hcase
      refine ⟨lastRead_relayCalls (pairwise_of_pollDirection hup), ?_⟩
      intro call hcall herror
      obtain ⟨hread, hfails⟩ := Bool.and_eq_true_iff.mp herror
      have hmem := isRead_of_mem_relayCalls hcall hread
      have hsome : ∀ {d'}, pollDirection _ _ = some (d', none) → False := fun hok =>
        absurd (List.any_eq_false.mp (pollDirection_spec hok hphase.relay.up.wellFormed).clean
          call hmem) (by simp [hfails])
      cases hcase with
      | upFailed => rfl
      | downFailed hup' => exact (hsome hup').elim
      | suspended hup' => exact (hsome hup').elim
      | ended hup' => exact (hsome hup').elim
  | _ => exact ⟨.nil, by simp [clientCalls]⟩

theorem close_of_isOver {session session' : Session} {inner : ConnectSession.Event}
    {effects : List Effect} (hover : isOver session = true)
    (hstep : session.step cfg inner = some (session', effects)) :
    inner = .close ∧ isOver session' = true := by
  cases session_cases hstep with
  | poll hpoll =>
      obtain ⟨hrunning, -⟩ := RelayFuture.step_cases hpoll
      simp [isOver, hrunning] at hover
  | close => exact ⟨rfl, rfl⟩
  | _ => cases hover

/-- What the downlink of a relay accepted is the beginning of what the remote sent. -/
theorem down_step {trace : ConnectSession.Trace} {session session' : Session}
    {inner : ConnectSession.Event} {effects : List Effect} (hinv : SessionInv cfg trace session)
    (hdown : acceptedBytes (downCalls (relayTrace trace)) <+:
      returnedBytes (downCalls (relayTrace trace)))
    (hstep : session.step cfg inner = some (session', effects)) :
    acceptedBytes (downCalls (relayTrace (trace ++ [(inner, effects)]))) <+:
      returnedBytes (downCalls (relayTrace (trace ++ [(inner, effects)]))) := by
  have hinv' := sessionInv_step hinv hstep
  cases session_cases hstep with
  | poll hpoll =>
      obtain ⟨buf, n, hphase⟩ := hinv'
      exact ⟨_, hphase.relay.down.streamIntact.bytes⟩
  | _ =>
      rw [relayTrace_snoc_other _ _ (by simp)]
      exact hdown

structure ClientInv (cfg : RelayConfig) (transportType : TransportType) (trace : Trace)
    (s : Session) : Prop where
  session : SessionInv cfg (seen trace) s
  returned : returnedBytes (made trace) = clientBytes (seen trace)
  accepted : acceptedBytes (made trace) = acceptedBytes (downCalls (relayed trace))
  down : acceptedBytes (downCalls (relayed trace)) <+: returnedBytes (downCalls (relayed trace))
  eof : (upCalls (relayed trace)).any IoCall.isEof = true → (made trace).any IoCall.isEof = true
  rooms : 0 < cfg.bufferSize → ∀ call ∈ made trace, HasRoom call
  shutdowns : transportType.halfClose = false → ∀ call ∈ made trace, ¬ IsShutdown call
  reads : (made trace).Pairwise LastRead
  failed : ∀ call ∈ made trace, isReadError call = true → isOver s = true

theorem clientInv_start (cfg : RelayConfig) (transportType : TransportType) :
    ClientInv cfg transportType [] .start where
  session := ⟨rfl, rfl, rfl, rfl⟩
  returned := rfl
  accepted := rfl
  down := List.prefix_rfl
  eof := by simp [relayed, seen, relayTrace, upCalls]
  rooms := by simp [made]
  shutdowns := by simp [made]
  reads := .nil
  failed := by simp [made]

theorem ClientInv.step_session {inner : ConnectSession.Event} {room : Nat}
    {effects : List Effect} (h : ClientInv cfg transportType trace s)
    (hroom : cfg.bufferSize ≤ room) (hstep : s.step cfg inner = some (s', effects)) :
    ClientInv cfg transportType
      (trace ++ [(.session inner room, ⟨effects, clientCalls transportType room inner⟩)]) s' := by
  have hseen := seen_snoc_session trace inner room
    ⟨effects, clientCalls transportType room inner⟩
  obtain ⟨hreads, hfailed⟩ : (clientCalls transportType room inner).Pairwise LastRead ∧ _ :=
    reads_of_session h.session hstep
  refine ⟨?_, ?_, ?_, ?_, ?_, ?_, ?_, ?_, ?_⟩
  · rw [hseen]
    exact sessionInv_step h.session hstep
  · rw [made_snoc, hseen, returnedBytes_append, h.returned, returnedBytes_clientCalls,
      clientBytes_snoc]
  · rw [made_snoc, relayed, hseen, acceptedBytes_append, h.accepted, acceptedBytes_clientCalls,
      downCalls_snoc_event, acceptedBytes_append, relayed]
  · rw [relayed, hseen]
    exact down_step h.session h.down hstep
  · rw [made_snoc, relayed, hseen, upCalls_snoc_event, List.any_append, List.any_append,
      Bool.or_eq_true, Bool.or_eq_true]
    exact Or.imp h.eof (isEof_clientCalls transportType room)
  · intro hbuffer call hcall
    rw [made_snoc] at hcall
    rcases List.mem_append.mp hcall with hold | hnew
    · exact h.rooms hbuffer call hold
    · exact hasRoom_of_session h.session hbuffer hroom hstep call hnew
  · intro hhalf call hcall
    rw [made_snoc] at hcall
    rcases List.mem_append.mp hcall with hold | hnew
    · exact h.shutdowns hhalf call hold
    · exact not_shutdown_of_clientCalls hhalf call hnew
  · rw [made_snoc]
    refine List.pairwise_append.mpr ⟨h.reads, hreads, ?_⟩
    intro call hold call' hnew herror
    obtain ⟨rfl, -⟩ := close_of_isOver (h.failed call hold herror) hstep
    cases hnew
  · intro call hcall herror
    rw [made_snoc] at hcall
    rcases List.mem_append.mp hcall with hold | hnew
    · exact (close_of_isOver (h.failed call hold herror) hstep).2
    · exact hfailed call hnew herror

theorem not_isOver_of_isReading (h : isReading s = true) : isOver s = false := by
  cases s <;> first | rfl | cases h

theorem ClientInv.step_waiting {room : Nat} (h : ClientInv cfg transportType trace s)
    (hreading : isReading s = true) (hroom : cfg.bufferSize ≤ room) :
    ClientInv cfg transportType
      (trace ++ [(.waiting room, ⟨[], [.pollRead room .pending]⟩)]) s := by
  have hopen := not_isOver_of_isReading hreading
  have hseen := seen_snoc_waiting trace room ⟨[], [.pollRead room .pending]⟩
  refine ⟨?_, ?_, ?_, ?_, ?_, ?_, ?_, ?_, ?_⟩
  · rw [hseen]
    exact h.session
  · rw [made_snoc, hseen, returnedBytes_append, h.returned]
    exact List.append_nil _
  · rw [made_snoc, relayed, hseen, acceptedBytes_append, h.accepted, relayed]
    exact List.append_nil _
  · rw [relayed, hseen]
    exact h.down
  · rw [made_snoc, relayed, hseen, List.any_append, Bool.or_eq_true]
    exact fun heof => .inl (h.eof heof)
  · intro hbuffer call hcall
    rw [made_snoc] at hcall
    rcases List.mem_append.mp hcall with hold | hnew
    · exact h.rooms hbuffer call hold
    · rw [List.mem_singleton.mp hnew]
      rintro _ _ ⟨⟩
      exact Nat.lt_of_lt_of_le hbuffer hroom
  · intro hhalf call hcall
    rw [made_snoc] at hcall
    rcases List.mem_append.mp hcall with hold | hnew
    · exact h.shutdowns hhalf call hold
    · rw [List.mem_singleton.mp hnew]
      rintro ⟨_, ⟨⟩⟩
  · rw [made_snoc]
    refine List.pairwise_append.mpr ⟨h.reads, List.pairwise_singleton _ _, ?_⟩
    intro call hold _ _ herror
    rw [h.failed call hold herror] at hopen
    cases hopen
  · intro call hcall herror
    rw [made_snoc] at hcall
    rcases List.mem_append.mp hcall with hold | hnew
    · exact h.failed call hold herror
    · rw [List.mem_singleton.mp hnew] at herror
      cases herror

theorem clientInv_run {events : List Event}
    (hrun : run (step cfg transportType) .start events = some (s, trace)) :
    ClientInv cfg transportType trace s := by
  refine run_induction hrun (clientInv_start cfg transportType) ?_
  intro _ _ _ _ _ h hstep
  cases stepCase_of_step hstep with
  | session hroom hsession => exact h.step_session hroom hsession
  | waiting hreading hroom => exact h.step_waiting hreading hroom

variable {stream : List UInt8} {n : Nat}

theorem headed_of_stream (h : ClientInv cfg transportType trace s)
    (hstream : returnedBytes (made trace) <+: stream)
    (hrequest : TrojanRequest.IsRequest stream n) {m : Nat}
    (hheaded : Headed (clientBytes (seen trace)) m) : m = n := by
  obtain ⟨more, hmore⟩ := hstream
  rw [h.returned] at hmore
  exact headed_unique (hmore ▸ headed_append hheaded more) hrequest

/-- What reaches the remote comes from behind the header of what the transport read. -/
theorem ClientInv.upload (h : ClientInv cfg transportType trace s)
    (hstream : returnedBytes (made trace) <+: stream)
    (hrequest : TrojanRequest.IsRequest stream n) :
    forwarded (seen trace) <+: stream.drop n := by
  rcases h.session.forwards with hnone | ⟨held, m, hheaded, hbytes⟩
  · rw [hnone]
    exact List.nil_prefix
  · rw [headed_of_stream h hstream hrequest hheaded, ← h.returned] at hbytes
    exact (hbytes ▸ List.prefix_append _ held).trans (hstream.drop n)

/-- The relay of the session is through, and was not cut short. -/
def Completed (session : Session) : Prop :=
  ∃ user relay result, session = .relaying user relay ∧ relay.returned = some (.ok result) ∧
    result.termination = .completed

theorem ClientInv.completed (h : ClientInv cfg transportType trace s)
    (hbuffer : 0 < cfg.bufferSize) (hcompleted : Completed s) :
    (made trace).any IoCall.isEof = true ∧
      acceptedBytes (downCalls (relayed trace)) = returnedBytes (downCalls (relayed trace)) ∧
      ∃ m, Headed (clientBytes (seen trace)) m ∧
        forwarded (seen trace) = (returnedBytes (made trace)).drop m := by
  obtain ⟨user, relay, result, rfl, hreturned, htermination⟩ := hcompleted
  obtain ⟨buf, m, hphase⟩ := h.session
  obtain ⟨hup, hdown⟩ := hphase.relay.completed result hreturned htermination
  obtain ⟨hupClean, hdownClean⟩ := hphase.relay.clean (by simp [hreturned])
  have hupAll := hphase.relay.up.fullyDelivered hbuffer hup hupClean
  refine ⟨h.eof hupAll.eof, (hphase.relay.down.fullyDelivered hbuffer hdown hdownClean).delivered,
    m, ?_, ?_⟩
  · rw [hphase.client]
    exact headed_append hphase.headed _
  · rw [h.returned, hphase.client, hphase.remote, hupAll.delivered,
      List.drop_append_of_le_length hphase.headed.2.1]

end Invariant

section Hosted

variable {τ α κ : Type} {cfg : RelayConfig} {transportType : TransportType}
  {serve : τ → IoCall × α → Option (τ × κ)} {t : τ} {s : Host Session τ}
  {events : List (Hosted.Event Event α)} {trace : Hosted.Trace Event Output α κ}

/-- What holds of a CONNECT session that is served by any transport without a half-close. -/
structure OnTransport (cfg : RelayConfig) (transportType : TransportType)
    (serve : τ → IoCall × α → Option (τ × κ)) (t : τ) (trace : Hosted.Trace Event Output α κ)
    (s : Host Session τ) : Prop where
  client : ClientInv cfg transportType (sessionTrace trace) s.session
  transport : ∃ inputs, run serve t inputs = some (s.transport, served trace)
  returned : returnedBytes (calls trace) = returnedBytes (made (sessionTrace trace))
  accepted : acceptedBytes (calls trace) = acceptedBytes (made (sessionTrace trace))
  eof : (made (sessionTrace trace)).any IoCall.isEof = true →
    (calls trace).any IoCall.isEof = true
  orderly : transportType.halfClose = false → 0 < cfg.bufferSize → Orderly (calls trace)
  opened : transportType.halfClose = false → s.closing = .notYet →
    ∀ call ∈ calls trace, ¬ IsShutdown call

theorem onTransport_of_run
    (hrun : run (connectOn cfg transportType serve) (.start .start t) events = some (s, trace)) :
    OnTransport cfg transportType serve t trace s := by
  obtain ⟨⟨inputs, hsession⟩, htransport, polls, hpolls, hcalls⟩ := runs_of_run hrun
  have hclient := clientInv_run hsession
  have hmade : calls trace = made (sessionTrace trace) ++ polls.map IoCall.pollShutdown := hcalls
  refine ⟨hclient, htransport, ?_, ?_, ?_, ?_, ?_⟩
  · simp [hmade]
  · simp [hmade]
  · rw [hmade, List.any_append, Bool.or_eq_true]
    exact .inl
  · intro hhalf hbuffer
    rw [hmade]
    exact orderly_append (hclient.rooms hbuffer) hclient.reads (hclient.shutdowns hhalf)
  · intro hhalf hopen
    rw [hmade, hpolls hopen, List.map_nil, List.append_nil]
    exact hclient.shutdowns hhalf

end Hosted

end TrojanServer.ConnectClient
