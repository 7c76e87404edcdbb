import TrojanServer.GrpcReadEnd
import TrojanServer.GrpcShutdown
import TrojanServer.Hosted

namespace TrojanServer.GrpcSend

open TrojanServer.GrpcCodec
open TrojanServer.StepMachine

/-- A transport that is no longer written to or flushed once it is shut down. -/
def LastShutdown (entry entry' : (SendOp × List H2Call) × Answer) : Prop :=
  entry.1.1 = .shutdown → entry'.1.1 = .shutdown

structure SendInv (m : Nat) (trace : Trace) (s : SendSide) : Prop where
  phase : Phase (log trace) s
  owes : Owes (log trace) s
  delivered : Delivered trace s
  bounded : Bounded m trace s
  opened : (∀ entry ∈ trace, entry.1.1 ≠ .shutdown) → s.writeClosed = false
  finished : ∀ entry ∈ trace, entry.1.1 = .shutdown → entry.2 = .done (.ready (.ok ())) →
    Finished (log trace) ∧ s.unsent = []
  flushed : (∀ entry, trace.getLast? = some entry → entry.2 = .done (.ready (.ok ()))) →
    s.unsent = []

theorem sendInv_start {m : Nat} (hmin : 1 ≤ m) : SendInv m [] (.start m) where
  phase := .underWay (.nil _)
  owes := by simp [Owes, SendSide.start]
  delivered := delivered_start m
  bounded := ⟨if_neg (by omega), by simp [accepted]⟩
  opened := fun _ => rfl
  finished := by simp
  flushed := fun _ => rfl

variable {m : Nat} {trace : Trace} {s s' : SendSide} {input : SendOp × List H2Call}
  {answer : Answer}

theorem writeClosed_step (hok : NoFailure input) (hop : input.1 ≠ .shutdown)
    (hstep : s.step input = some (s', answer)) : s'.writeClosed = s.writeClosed := by
  cases step_cases hstep with
  | failed hfailure => exact absurd hfailure hok.not_failed
  | refused _ => rfl
  | full _ hsends => exact hsends.writeClosed
  | accepted _ _ hsends hsends' => exact hsends'.writeClosed.trans hsends.writeClosed
  | flushed hsends _ => exact hsends.writeClosed
  | blocked hsends _ => exact hsends.writeClosed
  | already => exact absurd rfl hop
  | finished => exact absurd rfl hop
  | closing => exact absurd rfl hop

/-- A finished response stays as it is. -/
theorem finished_step (hphase : Phase (log trace) s) (hfinished : Finished (log trace))
    (hstep : s.step input = some (s', answer)) :
    log (trace ++ [(input, answer)]) = log trace ∧ s' = s := by
  cases hphase with
  | underWay hemits => exact absurd hfinished (not_finished_of_emits hemits)
  | finished _ hclosed hempty =>
      obtain ⟨hcalls, rfl⟩ := step_of_emptied hempty hclosed hstep
      rw [log_snoc, hcalls]
      exact ⟨List.append_nil _, rfl⟩

theorem SendInv.step (h : SendInv m trace s) (hok : NoFailure input)
    (hlast : ∀ entry ∈ trace, LastShutdown entry (input, answer))
    (hstep : s.step input = some (s', answer)) : SendInv m (trace ++ [(input, answer)]) s' := by
  have hflush : FlushBlocked s input := by
    intro hop hclosed
    have hopen := h.opened fun entry hentry hshutdown => by
      cases hop.symm.trans (hlast entry hentry hshutdown)
    rw [hopen] at hclosed
    cases hclosed
  obtain ⟨hdelivered, hempty⟩ := delivered_step h.delivered hok hstep
  obtain ⟨howes, hfinished⟩ := owes_step h.phase h.owes hok hflush hstep
  refine ⟨phase_step h.phase hok hstep, howes, hdelivered, bounded_step h.bounded hok hstep, ?_, ?_,
    fun hlast => hempty (hlast (input, answer) List.getLast?_concat)⟩
  · intro hnone
    rw [writeClosed_step hok (hnone (input, answer) (by simp)) hstep]
    exact h.opened fun entry hentry => hnone entry (by simp [hentry])
  · intro entry hentry hop hanswer
    rcases List.mem_append.mp hentry with hold | hnew
    · obtain ⟨hdone, hunsent⟩ := h.finished entry hold hop hanswer
      obtain ⟨hlog, rfl⟩ := finished_step h.phase hdone hstep
      rw [hlog]
      exact ⟨hdone, hunsent⟩
    · obtain rfl := List.mem_singleton.mp hnew
      exact ⟨hfinished hop hanswer, hempty hanswer⟩

theorem sendInv_run (hmin : 1 ≤ m) {inputs : List (SendOp × List H2Call)}
    (hrun : run SendSide.step (.start m) inputs = some (s, trace))
    (hok : ∀ entry ∈ trace, NoFailure entry.1) (hlast : trace.Pairwise LastShutdown) :
    SendInv m trace s := by
  revert hok hlast
  refine run_induction (P := fun trace s => (∀ entry ∈ trace, NoFailure entry.1) →
    trace.Pairwise LastShutdown → SendInv m trace s) hrun (fun _ _ => sendInv_start hmin) ?_
  intro trace s input s' answer ih hstep hok hlast
  obtain ⟨hpair, -, hcross⟩ := List.pairwise_append.mp hlast
  exact (ih (fun entry hentry => hok entry (by simp [hentry])) hpair).step
    (hok (input, answer) (by simp)) (fun entry hentry => hcross entry hentry _ (by simp)) hstep

end TrojanServer.GrpcSend

namespace TrojanServer.GrpcStream

open TrojanServer.AsyncIo
open TrojanServer.GrpcCodec
open TrojanServer.GrpcReceive (ReadSide InboundFrames LongestFrames StreamError arrived Regular)
open TrojanServer.GrpcSend (SendSide H2Call Op NoFailure Finished WellFormed log sent SendInv)
open TrojanServer.Hosted
open TrojanServer.StepMachine

structure GrpcTransport where
  readSide : ReadSide
  sendSide : SendSide

def GrpcTransport.start (activity : Option Bool) (maxMessageSize : Nat) : GrpcTransport :=
  ⟨.start activity, .start maxMessageSize⟩

inductive Arrival where
  | data (chunk : List UInt8)
  | endStream
  | reset (error : StreamError)

def Arrival.event : Arrival → GrpcReceive.Event
  | .data chunk => .data chunk
  | .endStream => .endStream
  | .reset error => .reset error

/-- What the HTTP/2 connection has to say at a call: what has arrived for the stream since the
last one, and how the calls on its response side go. -/
structure World where
  arrivals : List Arrival
  calls : List H2Call

abbrev Input := IoCall × World

/-- What the read side sees of a call. -/
def readEntries (input : Input) : GrpcReceive.Trace :=
  input.2.arrivals.map (fun arrival => (arrival.event, none)) ++
    match input.1 with
    | .pollRead room result => [(.read room, some result)]
    | _ => []

def sendEntries (input : Input) : GrpcSend.Trace :=
  match input.1 with
  | .pollRead _ _ => []
  | .pollWrite slice result => [((.write slice, input.2.calls), .wrote result)]
  | .pollFlush result => [((.flush, input.2.calls), .done result)]
  | .pollShutdown result => [((.shutdown, input.2.calls), .done result)]

def serve (t : GrpcTransport) (input : Input) : Option (GrpcTransport × Unit) :=
  match run ReadSide.step t.readSide ((readEntries input).map Prod.fst),
    run SendSide.step t.sendSide ((sendEntries input).map Prod.fst) with
  | some (readSide, reads), some (sendSide, sends) =>
      if reads = readEntries input ∧ sends = sendEntries input then
        some (⟨readSide, sendSide⟩, ())
      else none
  | _, _ => none

abbrev Served := List (Input × Unit)

def readTrace (served : Served) : GrpcReceive.Trace :=
  served.flatMap fun entry => readEntries entry.1

def sendTrace (served : Served) : GrpcSend.Trace :=
  served.flatMap fun entry => sendEntries entry.1

section Sides

variable {t t' : GrpcTransport} {served : Served} {m : Nat} {activity : Option Bool}

theorem sides_of_serve {input : Input} (h : serve t input = some (t', ())) :
    run ReadSide.step t.readSide ((readEntries input).map Prod.fst) =
        some (t'.readSide, readEntries input) ∧
      run SendSide.step t.sendSide ((sendEntries input).map Prod.fst) =
        some (t'.sendSide, sendEntries input) := by
  unfold serve at h
  split at h
  · rename_i hread hsend
    obtain ⟨⟨rfl, rfl⟩, heq⟩ := Option.ite_none_right_eq_some.mp h
    cases heq
    exact ⟨hread, hsend⟩
  · cases h

theorem sides_of_run {inputs : List Input}
    (hrun : run serve (.start activity m) inputs = some (t, served)) :
    (∃ events, run ReadSide.step (.start activity) events = some (t.readSide, readTrace served)) ∧
      ∃ ops, run SendSide.step (.start m) ops = some (t.sendSide, sendTrace served) := by
  refine run_induction (P := fun served t =>
    (∃ events, run ReadSide.step (.start activity) events = some (t.readSide, readTrace served)) ∧
      ∃ ops, run SendSide.step (.start m) ops = some (t.sendSide, sendTrace served)) hrun
    ⟨⟨[], rfl⟩, [], rfl⟩ ?_
  rintro served t input t' ⟨⟩ ⟨⟨events, hread⟩, ops, hsend⟩ hserve
  obtain ⟨hread', hsend'⟩ := sides_of_serve hserve
  refine ⟨⟨_, (run_append hread hread').trans ?_⟩, _, (run_append hsend hsend').trans ?_⟩
  · simp [readTrace]
  · simp [sendTrace]

theorem returned_readTrace (served : Served) :
    GrpcReceive.returned (readTrace served) =
      returnedBytes (served.map fun entry => entry.1.1) := by
  induction served with
  | nil => rfl
  | cons entry served ih =>
      obtain ⟨⟨call, world⟩, ⟨⟩⟩ := entry
      have hcons : readTrace (((call, world), ()) :: served) =
          readEntries (call, world) ++ readTrace served := rfl
      have hentry : GrpcReceive.returned (readEntries (call, world)) = call.returned := by
        have harrivals : GrpcReceive.returned
            (world.arrivals.map fun arrival => (arrival.event, none)) = [] := by
          simp [GrpcReceive.returned, GrpcReceive.returnedBy]
        rw [readEntries, GrpcReceive.returned_append, harrivals, List.nil_append]
        cases call with
        | pollRead room result =>
            rcases result with (_ | _) | _ <;>
              simp [GrpcReceive.returned, GrpcReceive.returnedBy, IoCall.returned]
        | _ => rfl
      rw [hcons, GrpcReceive.returned_append, hentry, ih, List.map_cons, returnedBytes_cons]

theorem accepted_sendTrace (served : Served) :
    (GrpcSend.accepted (sendTrace served)).flatten =
      acceptedBytes (served.map fun entry => entry.1.1) := by
  induction served with
  | nil => rfl
  | cons entry served ih =>
      obtain ⟨⟨call, world⟩, ⟨⟩⟩ := entry
      have hcons : GrpcSend.accepted (sendTrace (((call, world), ()) :: served)) =
          GrpcSend.accepted (sendEntries (call, world)) ++ GrpcSend.accepted (sendTrace served) :=
        List.flatMap_append
      have hentry : (GrpcSend.accepted (sendEntries (call, world))).flatten = call.accepted := by
        cases call with
        | pollWrite slice result =>
            rcases result with (_ | _) | _ <;>
              simp [GrpcSend.accepted, sendEntries, GrpcSend.acceptedBy, IoCall.accepted]
        | _ => rfl
      rw [hcons, List.flatten_append, hentry, ih, List.map_cons, acceptedBytes_cons]

/-- The entries of the read side that come from a call. -/
theorem mem_readEntries {input : Input} {entry : GrpcReceive.Event × Option GrpcReceive.ReadResult}
    (h : entry ∈ readEntries input) :
    (∃ arrival ∈ input.2.arrivals, entry = (arrival.event, none)) ∨
      ∃ room result, input.1 = .pollRead room result ∧ entry = (.read room, some result) := by
  rcases List.mem_append.mp h with harrival | hread
  · obtain ⟨arrival, hmem, rfl⟩ := List.mem_map.mp harrival
    exact .inl ⟨arrival, hmem, rfl⟩
  · split at hread
    · rename_i room result hcall
      exact .inr ⟨room, result, hcall, List.mem_singleton.mp hread⟩
    · cases hread

theorem mem_sendEntries {input : Input} {entry : (GrpcSend.SendOp × List H2Call) × GrpcSend.Answer}
    (h : entry ∈ sendEntries input) :
    entry.1.2 = input.2.calls ∧ (entry.1.1 = .shutdown ↔ IsShutdown input.1) := by
  obtain ⟨call, world⟩ := input
  cases call with
  | pollRead => cases h
  | _ =>
      obtain rfl := List.mem_singleton.mp h
      simp [IsShutdown]

/-- Reading stops at an error on the read side as it does in the calls. -/
theorem lastRead_readTrace (h : (served.map fun entry => entry.1.1).Pairwise LastRead) :
    (readTrace served).Pairwise GrpcReceive.LastRead := by
  refine List.pairwise_flatMap.mpr ⟨?_, ?_⟩
  · rintro ⟨⟨call, world⟩, ⟨⟩⟩ -
    refine List.pairwise_append.mpr ⟨?_, ?_, ?_⟩
    · refine List.pairwise_of_forall_mem_list fun entry hentry _ _ herror => ?_
      obtain ⟨arrival, -, rfl⟩ := List.mem_map.mp hentry
      obtain ⟨_, ⟨⟩⟩ := herror
    · cases call <;> simp
    · intro entry hentry _ _ herror
      obtain ⟨arrival, -, rfl⟩ := List.mem_map.mp hentry
      obtain ⟨_, ⟨⟩⟩ := herror
  · refine (List.pairwise_map.mp h).imp ?_
    rintro ⟨input, ⟨⟩⟩ ⟨input', ⟨⟩⟩ hlast entry hentry entry' hentry' ⟨e, herror⟩
    rcases mem_readEntries hentry' with ⟨_, -, rfl⟩ | ⟨room', result', hcall', rfl⟩
    · rfl
    · rcases mem_readEntries hentry with ⟨_, -, rfl⟩ | ⟨room, result, hcall, rfl⟩
      · cases herror
      · cases herror
        rw [hcall, hcall'] at hlast
        cases hlast rfl

theorem lastShutdown_sendTrace (h : (served.map fun entry => entry.1.1).Pairwise LastShutdown) :
    (sendTrace served).Pairwise GrpcSend.LastShutdown := by
  refine List.pairwise_flatMap.mpr ⟨?_, ?_⟩
  · rintro ⟨⟨call, world⟩, ⟨⟩⟩ -
    cases call <;> simp [sendEntries]
  · refine (List.pairwise_map.mp h).imp ?_
    rintro ⟨input, ⟨⟩⟩ ⟨input', ⟨⟩⟩ hlast entry hentry entry' hentry' hshutdown
    exact (mem_sendEntries hentry').2.mpr (hlast ((mem_sendEntries hentry).2.mp hshutdown))

end Sides

section Stream

variable {t : GrpcTransport} {served : Served} {m : Nat} {activity : Option Bool}
  {inputs : List Input}

def NoReset (served : Served) : Prop :=
  ∀ entry ∈ served, ∀ arrival ∈ entry.1.2.arrivals, ∀ error, arrival ≠ .reset error

/-- No call on the response side of the stream failed. -/
def StreamHeld (served : Served) : Prop :=
  ∀ entry ∈ served, entry.1.2.calls.any H2Call.isFailure = false

theorem regular_readTrace (hreset : NoReset served)
    (hrooms : ∀ entry ∈ served, HasRoom entry.1.1) :
    ∀ event ∈ (readTrace served).map Prod.fst, Regular event := by
  intro event hevent
  obtain ⟨entry, hentry, rfl⟩ := List.mem_map.mp hevent
  obtain ⟨input, hinput, hentry⟩ := List.mem_flatMap.mp hentry
  rcases mem_readEntries hentry with ⟨arrival, harrival, rfl⟩ | ⟨room, result, hcall, rfl⟩
  · have hnot := hreset input hinput arrival harrival
    cases arrival <;> simp_all [Regular, Arrival.event]
  · refine ⟨by simp, ?_⟩
    rintro _ ⟨⟩
    exact hrooms input hinput room result hcall

theorem noFailure_sendTrace (h : StreamHeld served) :
    ∀ entry ∈ sendTrace served, NoFailure entry.1 := by
  intro entry hentry
  obtain ⟨input, hinput, hentry⟩ := List.mem_flatMap.mp hentry
  rw [NoFailure, (mem_sendEntries hentry).1]
  exact h input hinput

/-- An end of file in the calls is one on the read side. -/
theorem exists_eof (h : (served.map fun entry => entry.1.1).any IoCall.isEof = true) :
    ∃ entry ∈ readTrace served, entry.2 = some (.ready (.ok [])) := by
  obtain ⟨call, hcall, heof⟩ := List.any_eq_true.mp h
  obtain ⟨input, hinput, rfl⟩ := List.mem_map.mp hcall
  obtain ⟨room, hread⟩ := pollRead_of_isEof heof
  refine ⟨(.read room, some (.ready (.ok []))), List.mem_flatMap.mpr ⟨input, hinput, ?_⟩, rfl⟩
  rw [readEntries, hread]
  simp

/-- What is read are the payloads of the frames that arrived; at end of file nothing else has
arrived, and all of it was read. -/
theorem reads_stream (hrun : run serve (.start activity m) inputs = some (t, served))
    (hcalls : Orderly (served.map fun entry => entry.1.1)) (hreset : NoReset served)
    {bytes : List UInt8} {payloads : List (List UInt8)}
    (hframes : LongestFrames (arrived (readTrace served)) bytes payloads) :
    returnedBytes (served.map fun entry => entry.1.1) <+: payloads.flatten ∧
      ((served.map fun entry => entry.1.1).any IoCall.isEof = true →
        bytes = arrived (readTrace served) ∧
          returnedBytes (served.map fun entry => entry.1.1) = payloads.flatten) := by
  obtain ⟨⟨reads, hread⟩, -⟩ := sides_of_run hrun
  have hregular := regular_readTrace hreset fun entry hentry =>
    hcalls.rooms entry.1.1 (List.mem_map_of_mem hentry)
  obtain ⟨bytes', payloads', hframes', hin, hreturned, heof⟩ :=
    GrpcReceive.frames_of_run hread hregular (lastRead_readTrace hcalls.reads)
  rw [returned_readTrace] at hreturned heof
  have hwithin := hframes.longest _ _ hframes' hin
  constructor
  · obtain ⟨more, rfl⟩ := hframes.frames.payloads_isPrefix hframes' hwithin
    rw [List.flatten_append]
    exact hreturned.trans (List.prefix_append _ _)
  · intro hend
    obtain ⟨hall, hreturned'⟩ := heof (exists_eof hend)
    obtain rfl : bytes' = bytes :=
      hwithin.eq_of_length_le (hall ▸ hframes.within).length_le
    obtain rfl := hframes.frames.payloads_unique hframes'
    exact ⟨hall, hreturned'⟩

/-- What the client is sent: frames of these payloads, within a response. -/
structure Response (served : Served) (payloads : List (List UInt8)) (response : List Op) :
    Prop where
  put : response = log (sendTrace served)
  wellFormed : WellFormed response
  frames : sent response <+: payloads.flatMap encodeGrpcMessage
  bytes : payloads.flatten = acceptedBytes (served.map fun entry => entry.1.1)
  opened : (∀ entry ∈ served, ¬ IsShutdown entry.1.1) →
    .trailers ∉ response ∧ .headers true ∉ response
  flushed : Flushed (served.map fun entry => entry.1.1) →
    FrameDecoding.drain decodeFrame (sent response) = ⟨payloads, [], none⟩
  closed : (∃ entry ∈ served, entry.1.1 = .pollShutdown (.ready (.ok ()))) →
    Finished response ∧ FrameDecoding.drain decodeFrame (sent response) = ⟨payloads, [], none⟩

theorem drain_of_unsent {s : SendSide} {trace : GrpcSend.Trace} (hinv : SendInv m trace s)
    (hmax : m ≤ 4 * 1024 * 1024) (hunsent : s.unsent = []) :
    FrameDecoding.drain decodeFrame (sent (log trace)) = ⟨GrpcSend.accepted trace, [], none⟩ := by
  have hsent := hinv.delivered
  rw [GrpcSend.Delivered, hunsent, List.append_nil] at hsent
  rw [hsent]
  apply drain_encodeGrpcMessage
  intro payload hpayload
  have hle := hinv.bounded.2 payload hpayload
  omega

theorem writes_stream (hmin : 1 ≤ m) (hmax : m ≤ 4 * 1024 * 1024)
    (hrun : run serve (.start activity m) inputs = some (t, served))
    (hcalls : Orderly (served.map fun entry => entry.1.1)) (hheld : StreamHeld served) :
    ∃ payloads response, Response served payloads response := by
  obtain ⟨-, ops, hsend⟩ := sides_of_run hrun
  have hinv := GrpcSend.sendInv_run hmin hsend (noFailure_sendTrace hheld)
    (lastShutdown_sendTrace hcalls.shutdowns)
  refine ⟨GrpcSend.accepted (sendTrace served), log (sendTrace served), rfl,
    hinv.phase.wellFormed, ?_, accepted_sendTrace served, ?_, ?_, ?_⟩
  · rw [← hinv.delivered]
    exact List.prefix_append _ _
  · intro hnone
    have hwrite := hinv.opened fun entry hentry => by
      obtain ⟨input, hinput, hentry⟩ := List.mem_flatMap.mp hentry
      exact mt (mem_sendEntries hentry).2.mp (hnone input hinput)
    cases hinv.phase with
    | underWay hemits =>
        rcases GrpcSend.emits_pending hemits with ⟨hlog, -⟩ | ⟨-, chunks, hlog⟩
        · rw [hlog]
          simp
        · rw [hlog]
          simp
    | finished _ hclosed _ =>
        rw [hwrite] at hclosed
        cases hclosed
  · intro hflushed
    refine drain_of_unsent hinv hmax (hinv.flushed (hflushed.last ?_ ?_))
    · rintro ⟨⟨call, world⟩, ⟨⟩⟩ - hread
      cases call with
      | pollRead => rfl
      | _ => cases hread
    · rintro ⟨⟨call, world⟩, ⟨⟩⟩ - hflush
      obtain rfl : call = .pollFlush (.ready (.ok ())) := hflush
      exact ⟨_, rfl, rfl⟩
  · rintro ⟨input, hinput, hcall⟩
    have hentry : ((.shutdown, input.1.2.calls), .done (.ready (.ok ()))) ∈ sendTrace served := by
      refine List.mem_flatMap.mpr ⟨input, hinput, ?_⟩
      rw [sendEntries, hcall]
      exact List.mem_singleton.mpr rfl
    obtain ⟨hfinished, hunsent⟩ := hinv.finished _ hentry rfl rfl
    exact ⟨hfinished, drain_of_unsent hinv hmax hunsent⟩

end Stream

end TrojanServer.GrpcStream
