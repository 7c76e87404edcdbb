import TrojanServer.ConnectUpload
import TrojanServer.Hosted
import TrojanServer.UdpDatagrams

namespace TrojanServer.UdpClient

open TrojanServer.AsyncIo
open TrojanServer.ConnectSession (Headed headed_append headed_unique probe_cases)
open TrojanServer.FrameDecoding
open TrojanServer.Hosted
open TrojanServer.Protocol
open TrojanServer.RequestReader
open TrojanServer.StepMachine
open TrojanServer.UdpSession

section Write

/-- A result after which no more calls are made. -/
def ends (calls : List IoCall) (result : Except String Unit) : Option (Except String Unit) :=
  if calls.isEmpty then some result else none

def elapsed : Except String Unit := .error "deadline has elapsed"

def flushResponse : List IoCall → Option (Except String Unit)
  | .pollFlush (.ready (.ok ())) :: calls => ends calls (.ok ())
  | .pollFlush (.ready (.error e)) :: calls => ends calls (.error e.message)
  -- the timeout can only end a poll that is pending
  | .pollFlush .pending :: calls => if calls.isEmpty then some elapsed else flushResponse calls
  | _ => none

/-- `write_all` and then `flush`, under one timeout: what is left to write and the calls made. -/
def writeResponse : List UInt8 → List IoCall → Option (Except String Unit)
  | [], calls => flushResponse calls
  | b :: rest, .pollWrite slice result :: calls =>
      if slice = b :: rest then
        match result with
        | .ready (.ok 0) => ends calls (.error "write zero")
        | .ready (.ok (n + 1)) =>
            if n ≤ rest.length then writeResponse (rest.drop n) calls else none
        | .ready (.error e) => ends calls (.error e.message)
        | .pending => if calls.isEmpty then some elapsed else writeResponse (b :: rest) calls
      else none
  | _, _ => none

/-- What the calls of a response do. -/
structure Wrote (rest : List UInt8) (calls : List IoCall) (result : Except String Unit) :
    Prop where
  bytes : acceptedBytes calls <+: rest
  quiet : ∀ call ∈ calls, isRead call = false ∧ ¬ IsShutdown call
  complete : result = .ok () → acceptedBytes calls = rest ∧
    ∃ before, calls = before ++ [.pollFlush (.ready (.ok ()))]

theorem wrote_failed {rest : List UInt8} {call : IoCall} {message : String}
    (hquiet : isRead call = false ∧ ¬ IsShutdown call) (hnothing : call.accepted = []) :
    Wrote rest [call] (.error message) where
  bytes := by simp [hnothing]
  quiet := by simpa using hquiet
  complete := by simp

theorem Wrote.cons {rest more : List UInt8} {call : IoCall} {calls : List IoCall}
    {result : Except String Unit} (h : Wrote more calls result)
    (hquiet : isRead call = false ∧ ¬ IsShutdown call) (hsplit : rest = call.accepted ++ more) :
    Wrote rest (call :: calls) result where
  bytes := by
    rw [hsplit, acceptedBytes_cons]
    exact (List.prefix_append_right_inj _).mpr h.bytes
  quiet := by
    intro call' hcall'
    rcases List.mem_cons.mp hcall' with rfl | hcall'
    · exact hquiet
    · exact h.quiet call' hcall'
  complete := by
    intro hok
    obtain ⟨hbytes, before, rfl⟩ := h.complete hok
    refine ⟨?_, call :: before, rfl⟩
    rw [acceptedBytes_cons, hbytes, hsplit]

theorem quiet_pollFlush (result : Poll (Except IoError Unit)) :
    isRead (.pollFlush result) = false ∧ ¬ IsShutdown (.pollFlush result) :=
  ⟨rfl, by rintro ⟨_, ⟨⟩⟩⟩

theorem quiet_pollWrite (slice : List UInt8) (result : Poll (Except IoError Nat)) :
    isRead (.pollWrite slice result) = false ∧ ¬ IsShutdown (.pollWrite slice result) :=
  ⟨rfl, by rintro ⟨_, ⟨⟩⟩⟩

theorem wrote_of_ends {rest : List UInt8} {call : IoCall} {calls : List IoCall}
    {message : String} {result : Except String Unit}
    (h : ends calls (.error message) = some result)
    (hquiet : isRead call = false ∧ ¬ IsShutdown call) (hnothing : call.accepted = []) :
    Wrote rest (call :: calls) result := by
  obtain ⟨hlast, heq⟩ := Option.ite_none_right_eq_some.mp h
  obtain rfl := List.isEmpty_iff.mp hlast
  cases heq
  exact wrote_failed hquiet hnothing

theorem wrote_of_flushResponse {calls : List IoCall} {result : Except String Unit}
    (h : flushResponse calls = some result) : Wrote [] calls result := by
  induction calls with
  | nil => cases h
  | cons call calls ih =>
      cases call with
      | pollFlush r =>
          rcases r with (e | ⟨⟩) | _
          · exact wrote_of_ends h (quiet_pollFlush _) rfl
          · obtain ⟨hlast, heq⟩ := Option.ite_none_right_eq_some.mp h
            obtain rfl := List.isEmpty_iff.mp hlast
            cases heq
            exact ⟨List.nil_prefix, by simpa using quiet_pollFlush _, fun _ => ⟨rfl, [], rfl⟩⟩
          · simp only [flushResponse] at h
            split at h
            · rename_i hlast
              obtain rfl := List.isEmpty_iff.mp hlast
              cases h
              exact wrote_failed (quiet_pollFlush _) rfl
            · exact (ih h).cons (quiet_pollFlush _) rfl
      | _ => cases h

theorem wrote_of_writeResponse {rest : List UInt8} {calls : List IoCall}
    {result : Except String Unit} (h : writeResponse rest calls = some result) :
    Wrote rest calls result := by
  induction calls generalizing rest with
  | nil => cases rest <;> cases h
  | cons call calls ih =>
      cases rest with
      | nil => exact wrote_of_flushResponse h
      | cons b rest =>
          cases call with
          | pollWrite slice r =>
              simp only [writeResponse] at h
              obtain ⟨rfl, hrest⟩ := Option.ite_none_right_eq_some.mp h
              rcases r with (e | _ | n) | _
              · exact wrote_of_ends hrest (quiet_pollWrite _ _) rfl
              · exact wrote_of_ends hrest (quiet_pollWrite _ _) rfl
              · obtain ⟨-, hmore⟩ := Option.ite_none_right_eq_some.mp hrest
                exact (ih hmore).cons (quiet_pollWrite _ _)
                  (List.take_append_drop (n + 1) (b :: rest)).symm
              · simp only at hrest
                split at hrest
                · rename_i hlast
                  obtain rfl := List.isEmpty_iff.mp hlast
                  cases hrest
                  exact wrote_failed (quiet_pollWrite _ _) rfl
                · exact (ih hrest).cons (quiet_pollWrite _ _) rfl
          | _ => cases h

end Write

variable {H : Type}

inductive Phase (H : Type) where
  | reading (reader : Reader)
  | requested (initialPayload : List UInt8)
  | associated (session : Session H)
  | closed

/-- A read of the request, a poll of a read that has to wait, the user being known, a timeout
or a refusal before that, or a round of the loop.  `room` is what `read_buf` has free, and
`writes` are the calls of a response. -/
inductive Event where
  | read (result : Except IoError (List UInt8)) (room : Nat)
  | waiting (room : Nat)
  | associate
  | close
  | round (event : UdpSession.Event) (room : Nat) (writes : List IoCall)

structure Output (H : Type) where
  round : Option (Round H)
  calls : List IoCall

def udpReadReserve : Nat := 8 * 1024

/-- What `process_connection` does with the end of `read_trojan_request`. -/
def afterRead (r : Reader) : Option (Phase H) :=
  match r.outcome with
  | none => some (.reading r)
  | some (.request request) =>
      match request.cmd with
      | .udpAssociate => some (.requested request.payload)
      | .connect => none
  | some _ => some .closed

/-- The calls of a round; `none` if the response is not written that way. -/
def roundCalls (s : Session H) (room : Nat) (writes : List IoCall) :
    UdpSession.Event → Option (List IoCall)
  | .read result =>
      if udpMaxReadBufferSize ≤ s.readBuf.length then some []
      else if udpReadReserve ≤ room then some [.pollRead room (.ready result)] else none
  | .reply (.ok (payload, fromAddr)) written _ =>
      let response := TrojanUdpPacket.encode (aclAddrToAddress fromAddr) payload
      if writeResponse response writes = some written then some writes else none
  | _ => some []

/-- The room of a read that the phase may be waiting for. -/
def reads (bufferSize : Nat) : Phase H → Option Nat
  | .reading _ => some bufferSize
  | .associated s =>
      if s.ended = none ∧ s.pendingBuffered = false ∧ s.readBuf.length < udpMaxReadBufferSize then
        some udpReadReserve
      else none
  | _ => none

def isOver : Phase H → Bool
  | .closed => true
  | .associated s => s.ended.isSome
  | _ => false

def step [DecidableEq H] (w : World H) (bufferSize : Nat) (p : Phase H) (event : Event) :
    Option (Phase H × Output H) :=
  match p, event with
  | .reading r, .read result room =>
      if bufferSize ≤ room then
        match r.step bufferSize result with
        | some (r, _) =>
            (afterRead r).map fun p => (p, ⟨none, [.pollRead room (.ready result)]⟩)
        | none => none
      else none
  | p, .waiting room =>
      match reads bufferSize p with
      | some least =>
          if least ≤ room then some (p, ⟨none, [.pollRead room .pending]⟩) else none
      | none => none
  | .requested initialPayload, .associate =>
      some (.associated (Session.start H initialPayload), ⟨none, []⟩)
  | .reading _, .close => some (.closed, ⟨none, []⟩)
  | .requested _, .close => some (.closed, ⟨none, []⟩)
  | .associated s, .round event room writes =>
      match s.step w event, roundCalls s room writes event with
      | some (s, round), some calls => some (.associated s, ⟨some round, calls⟩)
      | _, _ => none
  | _, _ => none

/-- A UDP session served by a transport. -/
def associateOn {τ α κ : Type} [DecidableEq H] (w : World H) (bufferSize : Nat)
    (serve : τ → IoCall × α → Option (τ × κ)) :
    Host (Phase H) τ → Hosted.Event Event α →
      Option (Host (Phase H) τ × Hosted.Output (Output H) α κ) :=
  hostStep (step w bufferSize) Output.calls isOver serve

def start (H : Type) : Phase H := .reading Reader.start

abbrev Trace (H : Type) := List (Event × Output H)

/-- The rounds of the loop. -/
def rounds (trace : Trace H) : UdpSession.Trace H :=
  trace.filterMap fun entry =>
    match entry.1, entry.2.round with
    | .round event _ _, some round => some (event, round)
    | _, _ => none

def made (trace : Trace H) : List IoCall := trace.flatMap fun entry => entry.2.calls

section Step

variable {w : World H} {bufferSize : Nat} {p p' : Phase H} {event : Event} {o : Output H}

inductive StepCase [DecidableEq H] (w : World H) (bufferSize : Nat) :
    Phase H → Event → Phase H → Output H → Prop
  | read {r r' : Reader} {result : Except IoError (List UInt8)} {room : Nat} {p' : Phase H}
      (hroom : bufferSize ≤ room) (hread : r.step bufferSize result = some (r', ()))
      (hafter : afterRead r' = some p') :
      StepCase w bufferSize (.reading r) (.read result room) p'
        ⟨none, [.pollRead room (.ready result)]⟩
  | waiting {p : Phase H} {room least : Nat} (hreads : reads bufferSize p = some least)
      (hroom : least ≤ room) :
      StepCase w bufferSize p (.waiting room) p ⟨none, [.pollRead room .pending]⟩
  | associate (initialPayload : List UInt8) :
      StepCase w bufferSize (.requested initialPayload) .associate
        (.associated (Session.start H initialPayload)) ⟨none, []⟩
  | close {p : Phase H} (hearly : ∀ s, p ≠ .associated s) (hopen : isOver p = false) :
      StepCase w bufferSize p .close .closed ⟨none, []⟩
  | round {s s' : Session H} {event : UdpSession.Event} {room : Nat} {writes calls : List IoCall}
      {round : Round H} (hstep : s.step w event = some (s', round))
      (hcalls : roundCalls s room writes event = some calls) :
      StepCase w bufferSize (.associated s) (.round event room writes) (.associated s')
        ⟨some round, calls⟩

theorem stepCase_of_step [DecidableEq H] (h : step w bufferSize p event = some (p', o)) :
    StepCase w bufferSize p event p' o := by
  cases event with
  | read result room =>
      cases p with
      | reading r =>
          obtain ⟨hroom, h⟩ := Option.ite_none_right_eq_some.mp h
          split at h
          · rename_i r' hread
            obtain ⟨p', hafter, heq⟩ := Option.map_eq_some_iff.mp h
            cases heq
            exact .read hroom hread hafter
          · cases h
      | _ => cases h
  | waiting room =>
      have hwaiting : (match reads bufferSize p with
          | some least => if least ≤ room then some (p, Output.mk none [.pollRead room .pending])
              else none
          | none => none) = some (p', o) := by
        cases p <;> exact h
      split at hwaiting
      · rename_i least hreads
        obtain ⟨hroom, heq⟩ := Option.ite_none_right_eq_some.mp hwaiting
        cases heq
        exact .waiting hreads hroom
      · cases hwaiting
  | associate =>
      cases p with
      | requested initialPayload =>
          cases h
          exact .associate initialPayload
      | _ => cases h
  | close =>
      cases p with
      | reading r =>
          cases h
          exact .close (by simp) rfl
      | requested initialPayload =>
          cases h
          exact .close (by simp) rfl
      | _ => cases h
  | round event room writes =>
      cases p with
      | associated s =>
          simp only [step] at h
          split at h
          · rename_i s' round calls hstep hcalls
            cases h
            exact .round hstep hcalls
          · cases h
      | _ => cases h

theorem rounds_snoc_round (trace : Trace H) (event : UdpSession.Event) (room : Nat)
    (writes calls : List IoCall) (round : Round H) :
    rounds (trace ++ [(.round event room writes, ⟨some round, calls⟩)]) =
      rounds trace ++ [(event, round)] := by
  simp [rounds]

theorem rounds_snoc_none (trace : Trace H) (event : Event) (calls : List IoCall) :
    rounds (trace ++ [(event, ⟨none, calls⟩)]) = rounds trace := by
  cases event <;> simp [rounds]

@[simp] theorem made_snoc (trace : Trace H) (event : Event) (o : Output H) :
    made (trace ++ [(event, o)]) = made trace ++ o.calls := by
  simp [made]

end Step

section Round

open TrojanServer.Protocol.TrojanUdpPacket (wire)

variable {w : World H} {s s' : Session H} {event : UdpSession.Event} {round : Round H}
  {room : Nat} {writes calls : List IoCall}

/-- What a session leaves of a response: nothing, or its beginning if it failed. -/
def Cut (s : Session H) (cut : List UInt8) : Prop :=
  cut = [] ∨ s.ended = some .responseFailed ∧ ∃ datagram, cut <+: wire datagram

/-- What the calls of a round do. -/
structure RoundSpec (event : UdpSession.Event) (s' : Session H) (round : Round H)
    (calls : List IoCall) : Prop where
  returned : returnedBytes calls = round.received
  rooms : ∀ call ∈ calls, HasRoom call
  opened : ∀ call ∈ calls, ¬ IsShutdown call
  reads : calls.Pairwise LastRead
  failed : ∀ call ∈ calls, isReadError call = true → s'.ended.isSome = true
  eof : s'.ended = some .disconnected → calls.any IoCall.isEof = true
  bytes : ∃ cut, acceptedBytes calls = (deliveredBy event).toList.flatMap wire ++ cut ∧ Cut s' cut
  flushed : s'.ended ≠ some .responseFailed → Flushed calls

theorem roundSpec_nil (hreceived : round.received = []) (hdelivered : deliveredBy event = none)
    (hended : s'.ended ≠ some .disconnected) : RoundSpec event s' round [] where
  returned := hreceived.symm
  rooms := by simp
  opened := by simp
  reads := .nil
  failed := by simp
  eof := fun hend => absurd hend hended
  bytes := ⟨[], by simp [hdelivered], .inl rfl⟩
  flushed := fun _ _ hlast => by cases hlast

theorem roundSpec_read {result : Except IoError (List UInt8)} (hroom : udpReadReserve ≤ room)
    (hreturned : IoCall.returned (.pollRead room (.ready result)) = round.received)
    (hfailed : ∀ e, result = .error e → s'.ended.isSome = true)
    (hended : s'.ended = some .disconnected → result = .ok []) :
    RoundSpec (.read result) s' round [.pollRead room (.ready result)] where
  returned := by simpa using hreturned
  rooms := by
    intro call hcall
    rw [List.mem_singleton.mp hcall]
    rintro _ _ ⟨⟩
    exact Nat.lt_of_lt_of_le (by decide) hroom
  opened := by
    intro call hcall
    rw [List.mem_singleton.mp hcall]
    rintro ⟨_, ⟨⟩⟩
  reads := List.pairwise_singleton _ _
  failed := by
    intro call hcall herror
    rw [List.mem_singleton.mp hcall] at herror
    cases result with
    | ok bytes => cases herror
    | error e => exact hfailed e rfl
  eof := by
    intro hend
    have hpos : 0 < room := Nat.lt_of_lt_of_le (by decide) hroom
    rw [hended hend]
    simp [IoCall.isEof, hpos]
  bytes := ⟨[], rfl, .inl rfl⟩
  flushed := fun _ _ hlast => by cases hlast

theorem returned_of_not_isRead {call : IoCall} (h : isRead call = false) : call.returned = [] := by
  cases call <;> first | rfl | cases h

/-- A response on its way to the client. -/
theorem roundSpec_reply {payload : List UInt8} {fromAddr : Hooks.AclAddr}
    {written : Except String Unit} {now : Nat}
    (hwrites : writeResponse (TrojanUdpPacket.encode (aclAddrToAddress fromAddr) payload) writes =
      some written)
    (hreceived : round.received = []) (hdisconnected : s'.ended ≠ some .disconnected)
    (hfailed : s'.ended ≠ some .responseFailed → written = .ok ()) :
    RoundSpec (.reply (.ok (payload, fromAddr)) written now) s' round writes := by
  have hwrote := wrote_of_writeResponse hwrites
  refine ⟨?_, ?_, fun call hcall => (hwrote.quiet call hcall).2, ?_, ?_,
    fun hend => absurd hend hdisconnected, ?_, ?_⟩
  · rw [hreceived]
    exact List.flatMap_eq_nil_iff.mpr fun call hcall =>
      returned_of_not_isRead (hwrote.quiet call hcall).1
  · rintro call hcall room result rfl
    cases (hwrote.quiet _ hcall).1
  · exact List.pairwise_of_forall_mem_list fun _ _ call' hcall' _ => (hwrote.quiet call' hcall').1
  · intro call hcall herror
    rw [isReadError, (hwrote.quiet call hcall).1] at herror
    cases herror
  · cases written with
    | ok done =>
        obtain ⟨hbytes, -⟩ := hwrote.complete rfl
        refine ⟨[], ?_, .inl rfl⟩
        rw [hbytes]
        simp [deliveredBy, wire]
    | error message =>
        have hended : s'.ended = some .responseFailed := by
          by_contra hrunning
          cases hfailed hrunning
        exact ⟨acceptedBytes writes, rfl,
          .inr ⟨hended, ⟨aclAddrToAddress fromAddr, payload⟩, hwrote.bytes⟩⟩
  · intro hrunning call hlast
    obtain ⟨-, before, rfl⟩ := hwrote.complete (hfailed hrunning)
    rw [lastWrite_append] at hlast
    cases hlast
    rfl

theorem roundSpec_of_step [DecidableEq H] (hstep : s.step w event = some (s', round))
    (hcalls : roundCalls s room writes event = some calls) :
    RoundSpec event s' round calls := by
  obtain ⟨hended, hcase⟩ := roundCase_of_step hstep
  cases hcase with
  | buffered =>
      cases hcalls
      exact roundSpec_nil rfl rfl (processPackets_ended w _ _ hended)
  | full hpending hfull =>
      simp only [roundCalls, if_pos hfull] at hcalls
      cases hcalls
      exact roundSpec_nil rfl rfl (by simp)
  | readFailed e hpending hroom =>
      simp only [roundCalls, if_neg (Nat.not_le_of_lt hroom)] at hcalls
      obtain ⟨hreserve, heq⟩ := Option.ite_none_right_eq_some.mp hcalls
      cases heq
      exact roundSpec_read hreserve rfl (by simp) (by simp)
  | eof hpending hroom =>
      simp only [roundCalls, if_neg (Nat.not_le_of_lt hroom)] at hcalls
      obtain ⟨hreserve, heq⟩ := Option.ite_none_right_eq_some.mp hcalls
      cases heq
      exact roundSpec_read hreserve rfl (by simp) (by simp)
  | read hbytes hpending hroom =>
      simp only [roundCalls, if_neg (Nat.not_le_of_lt hroom)] at hcalls
      obtain ⟨hreserve, heq⟩ := Option.ite_none_right_eq_some.mp hcalls
      cases heq
      exact roundSpec_read hreserve rfl (by simp)
        fun hend => absurd hend (processPackets_ended w _ _ hended)
  | delivered payload fromAddr now =>
      obtain ⟨hwrites, heq⟩ := Option.ite_none_right_eq_some.mp hcalls
      cases heq
      exact roundSpec_reply hwrites rfl (by simp [hended]) (by simp)
  | responseFailed payload fromAddr message now =>
      obtain ⟨hwrites, heq⟩ := Option.ite_none_right_eq_some.mp hcalls
      cases heq
      exact roundSpec_reply hwrites rfl (by simp) (by simp)
  | recvFailed message written now hfew =>
      cases hcalls
      exact roundSpec_nil rfl rfl (by simp [hended])
  | recvErrors message written now hmany =>
      cases hcalls
      exact roundSpec_nil rfl rfl (by simp)
  | idle =>
      cases hcalls
      exact roundSpec_nil rfl rfl (by simp)
  | active =>
      cases hcalls
      exact roundSpec_nil rfl rfl (by simp [hended])
  | kicked =>
      cases hcalls
      exact roundSpec_nil rfl rfl (by simp)

end Round

section Invariant

open TrojanServer.Protocol.TrojanUdpPacket (wire shrinks_decodeZerocopy stable_decodeZerocopy)

variable {bufferSize : Nat} {p p' : Phase H} {event : Event} {o : Output H} {trace : Trace H}

/-- Nothing but reads of the request. -/
structure Early (trace : Trace H) : Prop where
  rounds : rounds trace = []
  reads : ∀ call ∈ made trace, isRead call = true

structure Running (trace : Trace H) (s : Session H) (buf : List UInt8) (n : Nat) : Prop where
  headed : Headed buf n
  returned : returnedBytes (made trace) = buf ++ received (rounds trace)
  handled : Handled (buf.drop n) (rounds trace) s
  bytes : ∃ cut, acceptedBytes (made trace) = (delivered (rounds trace)).flatMap wire ++ cut ∧
    Cut s cut
  flushed : s.ended ≠ some .responseFailed → Flushed (made trace)
  eof : s.ended = some .disconnected → (made trace).any IoCall.isEof = true

def PhaseInv (trace : Trace H) : Phase H → Prop
  | .reading r => r.outcome = none ∧ r.buf = returnedBytes (made trace) ∧ Early trace
  | .requested initialPayload => Early trace ∧ ∃ n, Headed (returnedBytes (made trace)) n ∧
      initialPayload = (returnedBytes (made trace)).drop n
  | .associated s => ∃ buf n, Running trace s buf n
  | .closed => Early trace

structure ClientInv (bufferSize : Nat) (trace : Trace H) (p : Phase H) : Prop where
  phase : PhaseInv trace p
  rooms : 0 < bufferSize → ∀ call ∈ made trace, HasRoom call
  opened : ∀ call ∈ made trace, ¬ IsShutdown call
  reads : (made trace).Pairwise LastRead
  failed : ∀ call ∈ made trace, isReadError call = true → isOver p = true

theorem clientInv_start (bufferSize : Nat) : ClientInv bufferSize [] (start H) where
  phase := ⟨rfl, rfl, rfl, by simp [made]⟩
  rooms := by simp [made]
  opened := by simp [made]
  reads := .nil
  failed := by simp [made]

theorem acceptedBytes_of_isRead {calls : List IoCall} (h : ∀ call ∈ calls, isRead call = true) :
    acceptedBytes calls = [] := by
  refine List.flatMap_eq_nil_iff.mpr fun call hcall => ?_
  have hread := h call hcall
  cases call <;> first | rfl | cases hread

theorem lastWrite_of_isRead {calls : List IoCall} (h : ∀ call ∈ calls, isRead call = true) :
    lastWrite calls = none := by
  rw [lastWrite, List.filter_eq_nil_iff.mpr]
  · rfl
  · simpa using h

theorem Early.read (h : Early trace) (event : Event) (room : Nat)
    (result : Poll (Except IoError (List UInt8))) :
    Early (trace ++ [(event, ⟨none, [.pollRead room result]⟩)]) where
  rounds := by rw [rounds_snoc_none, h.rounds]
  reads := by
    intro call hcall
    rw [made_snoc] at hcall
    rcases List.mem_append.mp hcall with hold | hnew
    · exact h.reads call hold
    · rw [List.mem_singleton.mp hnew]
      rfl

/-- The loop starts with what was read behind the header. -/
theorem Early.running (h : Early trace) {n : Nat}
    (hheaded : Headed (returnedBytes (made trace)) n) :
    Running trace (Session.start H ((returnedBytes (made trace)).drop n))
      (returnedBytes (made trace)) n where
  headed := hheaded
  returned := by simp [h.rounds, received]
  handled := by
    rw [h.rounds]
    exact handled_start _
  bytes := ⟨[], by simp [h.rounds, delivered, acceptedBytes_of_isRead h.reads], .inl rfl⟩
  flushed := by
    intro _ call hlast
    rw [lastWrite_of_isRead h.reads] at hlast
    cases hlast
  eof := by simp [Session.start]

/-- One more read. -/
theorem ClientInv.readCall {room : Nat} {result : Poll (Except IoError (List UInt8))}
    (h : ClientInv bufferSize trace p) (hopen : isOver p = false)
    (hphase : PhaseInv (trace ++ [(event, ⟨none, [.pollRead room result]⟩)]) p')
    (hroom : 0 < bufferSize → 0 < room)
    (hfailed : ∀ e, result = .ready (.error e) → isOver p' = true) :
    ClientInv bufferSize (trace ++ [(event, ⟨none, [.pollRead room result]⟩)]) p' := by
  have hnone : ∀ call ∈ made trace, isReadError call = false := by
    intro call hcall
    by_contra herror
    rw [h.failed call hcall (by simpa using herror)] at hopen
    cases hopen
  refine ⟨hphase, ?_, ?_, ?_, ?_⟩
  · intro hbuffer call hcall
    rw [made_snoc] at hcall
    rcases List.mem_append.mp hcall with hold | hnew
    · exact h.rooms hbuffer call hold
    · rw [List.mem_singleton.mp hnew]
      rintro _ _ ⟨⟩
      exact hroom hbuffer
  · intro call hcall
    rw [made_snoc] at hcall
    rcases List.mem_append.mp hcall with hold | hnew
    · exact h.opened call hold
    · rw [List.mem_singleton.mp hnew]
      rintro ⟨_, ⟨⟩⟩
  · rw [made_snoc]
    refine List.pairwise_append.mpr ⟨h.reads, List.pairwise_singleton _ _, ?_⟩
    intro call hold _ _ herror
    rw [hnone call hold] at herror
    cases herror
  · intro call hcall herror
    rw [made_snoc] at hcall
    rcases List.mem_append.mp hcall with hold | hnew
    · rw [hnone call hold] at herror
      cases herror
    · rw [List.mem_singleton.mp hnew] at herror
      rcases result with (e | bytes) | _
      · exact hfailed e rfl
      · cases herror
      · cases herror

/-- No call at all, before the loop. -/
theorem ClientInv.noCall (h : ClientInv bufferSize trace p)
    (hphase : PhaseInv (trace ++ [(event, ⟨none, []⟩)]) p') (hopen : isOver p = false) :
    ClientInv bufferSize (trace ++ [(event, ⟨none, []⟩)]) p' := by
  have hmade : made (trace ++ [(event, ⟨none, []⟩)]) = made trace := by simp
  refine ⟨hphase, ?_, ?_, ?_, ?_⟩
  · rw [hmade]
    exact h.rooms
  · rw [hmade]
    exact h.opened
  · rw [hmade]
    exact h.reads
  · intro call hcall herror
    rw [hmade] at hcall
    rw [h.failed call hcall herror] at hopen
    cases hopen

theorem Early.noCall (h : Early trace) (event : Event) :
    Early (trace ++ [(event, ⟨none, []⟩)]) where
  rounds := by rw [rounds_snoc_none, h.rounds]
  reads := by simpa using h.reads

/-- The end of the request, or of its reading. -/
theorem phaseInv_read {r r' : Reader} {result : Except IoError (List UInt8)} {room : Nat}
    (h : PhaseInv trace (.reading r)) (hread : r.step bufferSize result = some (r', ()))
    (hafter : afterRead r' = some p') :
    PhaseInv (trace ++ [(.read result room, ⟨none, [.pollRead room (.ready result)]⟩)]) p' ∧
      ∀ e, result = .error e → isOver p' = true := by
  obtain ⟨houtcome, hbuf, hearly⟩ := h
  have hearly' := hearly.read (.read result room) room (.ready result)
  unfold Reader.step at hread
  simp only [houtcome] at hread
  split at hread
  · cases hread
    cases hafter
    exact ⟨hearly', fun _ _ => rfl⟩
  · split at hread
    · cases hread
      cases hafter
      exact ⟨hearly', fun _ _ => rfl⟩
    · cases hread
      cases hafter
      exact ⟨hearly', fun _ _ => rfl⟩
  · rename_i bytes _
    refine ⟨?_, by simp⟩
    have hall : r.buf ++ bytes = returnedBytes
        (made (trace ++ [(.read (.ok bytes) room,
          ⟨none, [.pollRead room (.ready (.ok bytes))]⟩)])) := by
      simp [hbuf, IoCall.returned]
    split at hread
    · cases hread
      cases hafter
      exact hearly'
    · cases hread
      rcases probe_cases (r.buf ++ bytes) with hprobe | ⟨rest, message, hprobe⟩ |
        ⟨rest, request, n, hprobe, hheaded, hpayload⟩
      · rw [hprobe] at hafter
        cases hafter
        exact ⟨rfl, hall, hearly'⟩
      · rw [hprobe] at hafter
        cases hafter
        exact hearly'
      · rw [hprobe] at hafter
        simp only [afterRead] at hafter
        split at hafter
        · cases hafter
          rw [hall] at hheaded hpayload
          exact ⟨hearly', n, hheaded, hpayload⟩
        · cases hafter

theorem running_round [DecidableEq H] {w : World H} {s s' : Session H}
    {inner : UdpSession.Event} {room : Nat} {writes calls : List IoCall} {round : Round H}
    {buf : List UInt8} {n : Nat} (h : Running trace s buf n)
    (hstep : s.step w inner = some (s', round)) (hspec : RoundSpec inner s' round calls) :
    Running (trace ++ [(.round inner room writes, ⟨some round, calls⟩)]) s' buf n := by
  obtain ⟨hended, -⟩ := roundCase_of_step hstep
  have hrounds := rounds_snoc_round trace inner room writes calls round
  have hrunning : s.ended ≠ some .responseFailed := by simp [hended]
  obtain ⟨cut, hbytes, hcut⟩ := h.bytes
  obtain rfl : cut = [] := hcut.resolve_right fun hfailed => hrunning hfailed.1
  obtain ⟨cut', hbytes', hcut'⟩ := hspec.bytes
  refine ⟨h.headed, ?_, ?_, ⟨cut', ?_, hcut'⟩, ?_, ?_⟩
  · rw [hrounds, made_snoc, returnedBytes_append, h.returned, hspec.returned, received_snoc,
      List.append_assoc]
  · rw [hrounds]
    exact h.handled.step hstep
  · rw [hrounds, made_snoc, acceptedBytes_append, hbytes, hbytes', delivered_snoc,
      List.flatMap_append, List.append_nil, List.append_assoc]
  · intro hgoes
    rw [made_snoc]
    exact (h.flushed hrunning).append (hspec.flushed hgoes)
  · intro hend
    rw [made_snoc, List.any_append, hspec.eof hend, Bool.or_true]

theorem ClientInv.round [DecidableEq H] {w : World H} {s s' : Session H}
    {inner : UdpSession.Event} {room : Nat} {writes calls : List IoCall} {round : Round H}
    (h : ClientInv bufferSize trace (.associated s)) (hstep : s.step w inner = some (s', round))
    (hcalls : roundCalls s room writes inner = some calls) :
    ClientInv bufferSize (trace ++ [(.round inner room writes, ⟨some round, calls⟩)])
      (.associated s') := by
  have hspec := roundSpec_of_step hstep hcalls
  obtain ⟨hended, -⟩ := roundCase_of_step hstep
  have hnone : ∀ call ∈ made trace, isReadError call = false := by
    intro call hcall
    by_contra herror
    have hover := h.failed call hcall (by simpa using herror)
    simp [isOver, hended] at hover
  obtain ⟨buf, n, hrunning⟩ := h.phase
  refine ⟨⟨buf, n, running_round hrunning hstep hspec⟩, ?_, ?_, ?_, ?_⟩
  · intro hbuffer call hcall
    rw [made_snoc] at hcall
    exact (List.mem_append.mp hcall).elim (h.rooms hbuffer call) (hspec.rooms call)
  · intro call hcall
    rw [made_snoc] at hcall
    exact (List.mem_append.mp hcall).elim (h.opened call) (hspec.opened call)
  · rw [made_snoc]
    refine List.pairwise_append.mpr ⟨h.reads, hspec.reads, ?_⟩
    intro call hold _ _ herror
    rw [hnone call hold] at herror
    cases herror
  · intro call hcall herror
    rw [made_snoc] at hcall
    rcases List.mem_append.mp hcall with hold | hnew
    · rw [hnone call hold] at herror
      cases herror
    · exact hspec.failed call hnew herror

/-- A read that has to wait changes nothing. -/
theorem phaseInv_waiting {room least : Nat} (h : PhaseInv trace p)
    (hreads : reads bufferSize p = some least) :
    PhaseInv (trace ++ [(.waiting room, ⟨none, [.pollRead room .pending]⟩)]) p := by
  have hreturned : returnedBytes (made (trace ++ [(.waiting room,
      ⟨none, [.pollRead room .pending]⟩)])) = returnedBytes (made trace) := by
    simp [IoCall.returned]
  cases p with
  | reading r =>
      obtain ⟨houtcome, hbuf, hearly⟩ := h
      exact ⟨houtcome, by rw [hbuf, hreturned], hearly.read _ room .pending⟩
  | associated s =>
      obtain ⟨buf, n, hheaded, hbytes, hhandled, ⟨cut, hdown, hcut⟩, hflushed, heof⟩ := h
      refine ⟨buf, n, hheaded, ?_, ?_, ⟨cut, ?_, hcut⟩, ?_, ?_⟩
      · rw [hreturned, hbytes, rounds_snoc_none]
      · rw [rounds_snoc_none]
        exact hhandled
      · rw [rounds_snoc_none, ← hdown]
        simp [IoCall.accepted]
      · intro hgoes
        rw [made_snoc]
        exact (hflushed hgoes).append fun _ hlast => by cases hlast
      · intro hend
        rw [made_snoc, List.any_append, heof hend, Bool.true_or]
  | requested initialPayload => cases hreads
  | closed => cases hreads

theorem isOver_of_reads {least : Nat} (h : reads bufferSize p = some least) :
    isOver p = false ∧ (0 < bufferSize → 0 < least) := by
  cases p with
  | reading r =>
      cases h
      exact ⟨rfl, id⟩
  | associated s =>
      obtain ⟨⟨hended, -⟩, heq⟩ := Option.ite_none_right_eq_some.mp h
      cases heq
      exact ⟨by simp [isOver, hended], fun _ => by decide⟩
  | requested initialPayload => cases h
  | closed => cases h

theorem ClientInv.step [DecidableEq H] {w : World H} (h : ClientInv bufferSize trace p)
    (hstep : step w bufferSize p event = some (p', o)) :
    ClientInv bufferSize (trace ++ [(event, o)]) p' := by
  cases stepCase_of_step hstep with
  | read hroom hread hafter =>
      obtain ⟨hphase, hfailed⟩ := phaseInv_read h.phase hread hafter
      refine h.readCall rfl hphase (fun hbuffer => Nat.lt_of_lt_of_le hbuffer hroom) ?_
      rintro e ⟨⟩
      exact hfailed e rfl
  | waiting hreads hroom =>
      obtain ⟨hopen, hleast⟩ := isOver_of_reads hreads
      exact h.readCall hopen (phaseInv_waiting h.phase hreads)
        (fun hbuffer => Nat.lt_of_lt_of_le (hleast hbuffer) hroom) (by simp)
  | associate initialPayload =>
      obtain ⟨hearly, n, hheaded, rfl⟩ := h.phase
      have hmade : made (trace ++ [(.associate, ⟨none, []⟩)]) = made trace := by simp
      have hrunning := (hearly.noCall .associate).running (by rw [hmade]; exact hheaded)
      rw [hmade] at hrunning
      exact h.noCall ⟨_, n, hrunning⟩ rfl
  | close hearly hopen =>
      refine h.noCall ?_ hopen
      cases p with
      | reading r => exact h.phase.2.2.noCall .close
      | requested initialPayload => exact h.phase.1.noCall .close
      | associated s => exact absurd rfl (hearly s)
      | closed => cases hopen
  | round hround hcalls => exact h.round hround hcalls

theorem clientInv_run [DecidableEq H] {w : World H} {events : List Event}
    (hrun : run (UdpClient.step w bufferSize) (start H) events = some (p, trace)) :
    ClientInv bufferSize trace p :=
  run_induction hrun (clientInv_start bufferSize) fun _ _ _ _ _ h hstep => h.step hstep

/-- How the loop ended. -/
def Ended (p : Phase H) (cause : SessionEnd) : Prop :=
  ∃ s, p = .associated s ∧ s.ended = some cause

theorem PhaseInv.early_or_running (h : PhaseInv trace p) :
    Early trace ∧ (∀ cause, ¬ Ended p cause) ∨
      ∃ s buf n, p = .associated s ∧ Running trace s buf n := by
  cases p with
  | reading r => exact .inl ⟨h.2.2, by rintro cause ⟨s, ⟨⟩, -⟩⟩
  | requested initialPayload => exact .inl ⟨h.1, by rintro cause ⟨s, ⟨⟩, -⟩⟩
  | closed => exact .inl ⟨h, by rintro cause ⟨s, ⟨⟩, -⟩⟩
  | associated s =>
      obtain ⟨buf, n, hrunning⟩ := h
      exact .inr ⟨s, buf, n, rfl, hrunning⟩

theorem Running.drop {s : Session H} {buf more : List UInt8} {n m : Nat}
    (h : Running trace s buf n)
    (hrequest : TrojanRequest.IsRequest (returnedBytes (made trace) ++ more) m) :
    (returnedBytes (made trace) ++ more).drop m =
      buf.drop n ++ received (rounds trace) ++ more := by
  rw [h.returned] at hrequest ⊢
  rw [List.append_assoc] at hrequest ⊢
  rw [← headed_unique (headed_append h.headed _) hrequest,
    List.drop_append_of_le_length h.headed.2.1, List.append_assoc]

/-- The datagrams handled are the first of those behind the request, and all of them if the
client closed its stream. -/
theorem ClientInv.uplink {stream : List UInt8} {n : Nat} (h : ClientInv bufferSize trace p)
    (hstream : returnedBytes (made trace) <+: stream)
    (hrequest : TrojanRequest.IsRequest stream n) :
    decoded (rounds trace) <+: (drain TrojanUdpPacket.decodeZerocopy (stream.drop n)).values ∧
      (Ended p .disconnected → returnedBytes (made trace) = stream →
        decoded (rounds trace) =
          (drain TrojanUdpPacket.decodeZerocopy (stream.drop n)).values) := by
  obtain ⟨more, rfl⟩ := hstream
  rcases h.phase.early_or_running with ⟨hearly, hends⟩ | ⟨s, buf, m, rfl, hrunning⟩
  · refine ⟨?_, fun hend => absurd hend (hends _)⟩
    rw [hearly.rounds]
    exact List.nil_prefix
  · rw [hrunning.drop hrequest]
    refine ⟨hrunning.handled.values.trans (drain_values_isPrefix shrinks_decodeZerocopy
      stable_decodeZerocopy (List.prefix_append _ _)), ?_⟩
    rintro ⟨_, ⟨⟩, hend⟩ hall
    obtain rfl : more = [] := List.append_right_eq_self.mp hall.symm
    rw [List.append_nil]
    exact hrunning.handled.disconnected hend

/-- The client is sent the delivered datagrams and nothing else, unless a write failed, which
may leave it with the beginning of one more. -/
theorem ClientInv.downlink (h : ClientInv bufferSize trace p) :
    ∃ cut, acceptedBytes (made trace) = (delivered (rounds trace)).flatMap wire ++ cut ∧
      (∃ datagram, cut <+: wire datagram) ∧
      (¬ Ended p .responseFailed → cut = [] ∧ Flushed (made trace)) := by
  rcases h.phase.early_or_running with ⟨hearly, hends⟩ | ⟨s, buf, n, rfl, hrunning⟩
  · refine ⟨[], ?_, ⟨⟨.domain "" 0, []⟩, List.nil_prefix⟩, fun _ => ⟨rfl, ?_⟩⟩
    · rw [acceptedBytes_of_isRead hearly.reads, hearly.rounds]
      rfl
    · intro call hlast
      rw [lastWrite_of_isRead hearly.reads] at hlast
      cases hlast
  · obtain ⟨cut, hbytes, hcut⟩ := hrunning.bytes
    refine ⟨cut, hbytes, ?_, ?_⟩
    · rcases hcut with rfl | ⟨-, hpart⟩
      · exact ⟨⟨.domain "" 0, []⟩, List.nil_prefix⟩
      · exact hpart
    · intro hgoes
      have hrunningOn : s.ended ≠ some .responseFailed := fun hend => hgoes ⟨s, rfl, hend⟩
      exact ⟨hcut.resolve_right fun hfailed => hrunningOn hfailed.1,
        hrunning.flushed hrunningOn⟩

theorem ClientInv.disconnected (h : ClientInv bufferSize trace p) (hend : Ended p .disconnected) :
    (made trace).any IoCall.isEof = true := by
  obtain ⟨s, rfl, hended⟩ := hend
  obtain ⟨buf, n, hrunning⟩ := h.phase
  exact hrunning.eof hended

end Invariant

section Hosted

variable {τ α κ : Type} {w : World H} {bufferSize : Nat}
  {serve : τ → IoCall × α → Option (τ × κ)} {t : τ} {s : Host (Phase H) τ}
  {events : List (Hosted.Event Event α)} {trace : Hosted.Trace Event (Output H) α κ}

/-- What holds of a UDP session that is served by any transport. -/
structure OnTransport (bufferSize : Nat) (serve : τ → IoCall × α → Option (τ × κ)) (t : τ)
    (trace : Hosted.Trace Event (Output H) α κ) (s : Host (Phase H) τ) : Prop where
  client : ClientInv bufferSize (sessionTrace trace) s.session
  transport : ∃ inputs, run serve t inputs = some (s.transport, served trace)
  returned : returnedBytes (calls trace) = returnedBytes (made (sessionTrace trace))
  accepted : acceptedBytes (calls trace) = acceptedBytes (made (sessionTrace trace))
  eof : (made (sessionTrace trace)).any IoCall.isEof = true →
    (calls trace).any IoCall.isEof = true
  orderly : 0 < bufferSize → Orderly (calls trace)
  opened : s.closing = .notYet → calls trace = made (sessionTrace trace)

theorem onTransport_of_run [DecidableEq H]
    (hrun : run (associateOn w bufferSize serve) (.start (start H) t) events = some (s, trace)) :
    OnTransport bufferSize serve t trace s := by
  obtain ⟨⟨inputs, hsession⟩, htransport, polls, hpolls, hcalls⟩ := runs_of_run hrun
  have hclient := clientInv_run hsession
  have hmade : calls trace = made (sessionTrace trace) ++ polls.map IoCall.pollShutdown := hcalls
  refine ⟨hclient, htransport, ?_, ?_, ?_, ?_, ?_⟩
  · simp [hmade]
  · simp [hmade]
  · rw [hmade, List.any_append, Bool.or_eq_true]
    exact .inl
  · intro hbuffer
    rw [hmade]
    exact orderly_append (hclient.rooms hbuffer) hclient.reads hclient.opened
  · intro hopen
    rw [hmade, hpolls hopen, List.map_nil, List.append_nil]

end Hosted

end TrojanServer.UdpClient
