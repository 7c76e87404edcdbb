import TrojanServer.Hosted
import TrojanServer.WebSocketClose
import TrojanServer.WebSocketRead

namespace TrojanServer.WebSocketStream

open TrojanServer.AsyncIo
open TrojanServer.Hosted
open TrojanServer.StepMachine
open TrojanServer.WebSocket (WebSocketTransport SinkAnswers SinkCall Operation OperationResult
  NextResult History OpenInv EndedInv WriteInv CloseFlushed withEarlyData payloads sinkCalls sent
  writes)

def operation : IoCall → Operation
  | .pollRead room _ => .pollRead room
  | .pollWrite slice _ => .pollWrite slice
  | .pollFlush _ => .pollFlush
  | .pollShutdown _ => .pollShutdown

def outcome : IoCall → OperationResult
  | .pollRead _ result => .read result
  | .pollWrite _ result => .written result
  | .pollFlush result => .flushed result
  | .pollShutdown result => .shutdown result

/-- A call on the transport that gives the result the caller saw. -/
def serve (t : WebSocketTransport) (input : IoCall × SinkAnswers) :
    Option (WebSocketTransport × List SinkCall) :=
  match WebSocket.step t (operation input.1, input.2) with
  | some (t', result, calls) => if result = outcome input.1 then some (t', calls) else none
  | none => none

abbrev Served := List ((IoCall × SinkAnswers) × List SinkCall)

def history (served : Served) : History :=
  served.map fun entry => ((operation entry.1.1, entry.1.2), (outcome entry.1.1, entry.2))

def reads (served : Served) : WebSocket.Trace :=
  served.filterMap fun entry =>
    match entry.1.1 with
    | .pollRead room result => some (room, result)
    | _ => none

section Serve

variable {t t' : WebSocketTransport} {call : IoCall} {sink : SinkAnswers} {made : List SinkCall}
  {served : Served} {early : List UInt8} {incoming : List NextResult}

theorem step_of_serve (h : serve t (call, sink) = some (t', made)) :
    WebSocket.step t (operation call, sink) = some (t', (outcome call, made)) := by
  unfold serve at h
  split at h
  · rename_i hstep
    obtain ⟨hresult, heq⟩ := Option.ite_none_right_eq_some.mp h
    cases heq
    rw [← hresult]
    exact hstep
  · cases h

@[simp] theorem history_snoc (served : Served) (entry : (IoCall × SinkAnswers) × List SinkCall) :
    history (served ++ [entry]) =
      history served ++ [((operation entry.1.1, entry.1.2), (outcome entry.1.1, entry.2))] := by
  simp [history]

/-- Only a read changes what is to be read. -/
theorem readSide_of_serve (h : serve t (call, sink) = some (t', made))
    (hread : isRead call = false) :
    t'.readClosed = t.readClosed ∧ t'.undelivered = t.undelivered ∧ t'.wsStream = t.wsStream := by
  have hstep := step_of_serve h
  cases call with
  | pollRead => cases hread
  | pollWrite => cases hstep; exact ⟨rfl, rfl, rfl⟩
  | pollFlush => cases hstep; exact ⟨rfl, rfl, rfl⟩
  | pollShutdown result =>
      have ht' : (t.pollShutdown sink).2 = t' := congrArg Prod.fst (Option.some.inj hstep)
      subst ht'
      unfold WebSocketTransport.pollShutdown
      split
      · exact ⟨rfl, rfl, rfl⟩
      · simp only
        split <;> exact ⟨rfl, rfl, rfl⟩

theorem reads_snoc_read (served : Served) (room : Nat) (result : WebSocket.ReadResult)
    (sink : SinkAnswers) (made : List SinkCall) :
    reads (served ++ [((.pollRead room result, sink), made)]) =
      reads served ++ [(room, result)] := by
  simp [reads]

theorem reads_snoc_other (served : Served) (hread : isRead call = false) :
    reads (served ++ [((call, sink), made)]) = reads served := by
  cases call with
  | pollRead => cases hread
  | _ => simp [reads]

/-- The stream of the client is open, or was read to its end. -/
def ReadInv (early : List UInt8) (incoming : List NextResult) (served : Served)
    (t : WebSocketTransport) : Prop :=
  OpenInv early incoming (reads served) t ∨ EndedInv early incoming (reads served) t

theorem ReadInv.step (h : ReadInv early incoming served t)
    (hserve : serve t (call, sink) = some (t', made)) (hroom : HasRoom call) :
    ReadInv early incoming (served ++ [((call, sink), made)]) t' := by
  by_cases hread : isRead call = true
  · cases call with
    | pollRead room result =>
        have hpos := hroom room result rfl
        have hstep := step_of_serve hserve
        have hpolled : t.pollRead room = (result, t') := by
          have hresult := Option.some.inj hstep
          simp only [Prod.mk.injEq, outcome, OperationResult.read.injEq] at hresult
          exact Prod.ext hresult.2.1 hresult.1
        rw [ReadInv, reads_snoc_read]
        rcases h with hopen | hended
        · simpa [hpolled] using hopen.step hpos
        · exact .inr (by simpa [hpolled] using hended.step room)
    | _ => cases hread
  · have hread := Bool.eq_false_iff.mpr hread
    obtain ⟨hclosed, hheld, hstream⟩ := readSide_of_serve hserve hread
    rw [ReadInv, reads_snoc_other served hread]
    rcases h with hopen | hended
    · refine .inl ⟨hclosed.trans hopen.opened, hopen.progress, ?_, ?_, ?_⟩
      · rw [hheld, hstream]
        exact hopen.bytes
      · rw [hstream]
        exact hopen.ending
      · rw [hheld, hstream]
        exact hopen.weight
    · exact .inr ⟨hclosed.trans hended.closed, hheld.trans hended.none, hended.calls⟩

/-- Without a shutdown the transport is not closed. -/
theorem writeClosed_of_serve (h : serve t (call, sink) = some (t', made))
    (hcall : ¬ IsShutdown call) : t'.writeClosed = t.writeClosed := by
  have hstep := step_of_serve h
  cases call with
  | pollRead room result =>
      cases hstep
      exact WebSocket.writeClosed_pollRead t room
  | pollWrite => cases hstep; rfl
  | pollFlush => cases hstep; rfl
  | pollShutdown result => exact absurd ⟨result, rfl⟩ hcall

theorem CloseFlushed.append {calls : List SinkCall} (h : CloseFlushed calls)
    (more : List SinkCall) : CloseFlushed (calls ++ more) := by
  obtain ⟨before, after, flush, rfl, hflush, hflushed⟩ := h
  exact ⟨before, after ++ more, flush, by simp, List.mem_append_left more hflush, hflushed⟩

/-- The sink took every message it was handed. -/
def SinkHeld (served : Served) : Prop :=
  ∀ call ∈ sinkCalls (history served), call.failed = false

theorem SinkHeld.of_snoc {entry : (IoCall × SinkAnswers) × List SinkCall}
    (h : SinkHeld (served ++ [entry])) :
    SinkHeld served ∧ ∀ call ∈ entry.2, call.failed = false := by
  rw [SinkHeld, history_snoc, WebSocket.sinkCalls_snoc] at h
  exact ⟨fun call hcall => h call (by simp [hcall]), fun call hcall => h call (by simp [hcall])⟩

structure TransportInv (early : List UInt8) (incoming : List NextResult) (served : Served)
    (t : WebSocketTransport) : Prop where
  read : (∀ entry ∈ served, HasRoom entry.1.1) → ReadInv early incoming served t
  opened : (∀ entry ∈ served, ¬ IsShutdown entry.1.1) → t.writeClosed = false
  written : SinkHeld served → WriteInv (history served) t
  flushed : SinkHeld served → ∀ entry ∈ served,
    entry.1.1 = .pollShutdown (.ready (.ok ())) → CloseFlushed (sinkCalls (history served))

theorem TransportInv.step (h : TransportInv early incoming served t)
    (hserve : serve t (call, sink) = some (t', made)) :
    TransportInv early incoming (served ++ [((call, sink), made)]) t' where
  read := fun hrooms =>
    (h.read fun entry hentry => hrooms entry (by simp [hentry])).step hserve
      (hrooms ((call, sink), made) (by simp))
  opened := by
    intro hnone
    rw [writeClosed_of_serve hserve (hnone ((call, sink), made) (by simp))]
    exact h.opened fun entry hentry => hnone entry (by simp [hentry])
  written := by
    intro hheld
    obtain ⟨hbefore, hnow⟩ := hheld.of_snoc
    rw [history_snoc]
    exact (h.written hbefore).step (WebSocket.writeCase_step (step_of_serve hserve) hnow)
  flushed := by
    intro hheld entry hentry hdone
    obtain ⟨hbefore, hnow⟩ := hheld.of_snoc
    rw [history_snoc, WebSocket.sinkCalls_snoc]
    rcases List.mem_append.mp hentry with hold | hnew
    · exact CloseFlushed.append (h.flushed hbefore entry hold hdone) _
    · rw [List.mem_singleton.mp hnew] at hdone
      have hcase := WebSocket.writeCase_step (step_of_serve hserve) hnow
      have hdone : call = .pollShutdown (.ready (.ok ())) := hdone
      exact (h.written hbefore).closeFlushed hcase (by rw [hdone]; rfl)

theorem transportInv_run {inputs : List (IoCall × SinkAnswers)}
    (hrun : run serve (withEarlyData incoming early) inputs = some (t, served)) :
    TransportInv early incoming served t := by
  refine run_induction hrun ?_ fun _ _ _ _ _ h hserve => h.step hserve
  refine ⟨fun _ => .inl ⟨rfl, by simp [reads], rfl, rfl, ?_⟩, fun _ => rfl, fun _ => ?_, by simp⟩
  · exact fun _ => Nat.le_of_eq (Nat.zero_add _)
  · exact ⟨by simp [history, writes], by simp [history, sinkCalls, writes, withEarlyData],
      by simp [withEarlyData]⟩

end Serve

section Bytes

variable {t : WebSocketTransport} {served : Served} {early : List UInt8}
  {incoming : List NextResult}

theorem delivered_reads (served : Served) :
    WebSocket.delivered (reads served) =
      returnedBytes (served.map fun entry => entry.1.1) := by
  induction served with
  | nil => rfl
  | cons entry served ih =>
      obtain ⟨⟨call, sink⟩, made⟩ := entry
      cases call with
      | pollRead room result =>
          rw [List.map_cons, returnedBytes_cons, ← ih]
          rcases result with (_ | _) | _ <;> rfl
      | _ => simpa [reads, IoCall.returned] using ih

theorem returnedBytes_of_terminal {event : NextResult} {result : Except IoError (List UInt8)}
    (h : WebSocket.terminal event = some result) :
    WebSocket.returnedBytes (.ready result) = [] := by
  unfold WebSocket.terminal at h
  split at h <;> cases h <;> rfl

theorem EndedInv.delivered {trace : WebSocket.Trace} (h : EndedInv early incoming trace t) :
    WebSocket.delivered trace = early ++ payloads incoming := by
  obtain ⟨before, room, result, later, rfl, -, hbytes, hending, hlater⟩ := h.calls
  obtain ⟨event, -, hterminal⟩ := List.exists_of_findSome?_eq_some hending
  have hlast := returnedBytes_of_terminal hterminal
  have hnone : WebSocket.delivered later = [] :=
    List.flatMap_eq_nil_iff.mpr fun call hcall => by rw [hlater call hcall]; rfl
  rw [WebSocket.delivered] at hbytes hnone ⊢
  rw [List.flatMap_append, List.flatMap_cons, hbytes, hlast, hnone]
  simp

theorem ReadInv.prefixed (h : ReadInv early incoming served t) :
    returnedBytes (served.map fun entry => entry.1.1) <+: early ++ payloads incoming := by
  rw [← delivered_reads]
  rcases h with hopen | hended
  · exact ⟨_, hopen.bytes⟩
  · exact ⟨[], by rw [List.append_nil, EndedInv.delivered hended]⟩

/-- An end of file is the end of the client's stream. -/
theorem ReadInv.all_of_eof (h : ReadInv early incoming served t)
    (heof : (served.map fun entry => entry.1.1).any IoCall.isEof = true) :
    returnedBytes (served.map fun entry => entry.1.1) = early ++ payloads incoming := by
  rw [← delivered_reads]
  rcases h with hopen | hended
  · obtain ⟨call, hcall, hend⟩ := List.any_eq_true.mp heof
    obtain ⟨entry, hentry, rfl⟩ := List.mem_map.mp hcall
    obtain ⟨room, hread⟩ := pollRead_of_isEof hend
    have hmem : (room, .ready (.ok [])) ∈ reads served :=
      List.mem_filterMap.mpr ⟨entry, hentry, by rw [hread]⟩
    rcases hopen.progress _ hmem with hpending | ⟨bytes, hne, hbytes⟩
    · cases hpending
    · cases hbytes
      exact absurd rfl hne
  · exact EndedInv.delivered hended

theorem writes_cons (entry : (IoCall × SinkAnswers) × List SinkCall) (served : Served) :
    writes (history (entry :: served)) =
      WebSocket.accepted ((operation entry.1.1, entry.1.2), (outcome entry.1.1, entry.2)) ++
        writes (history served) := rfl

/-- A write that is taken in full is one message with the bytes it accepted. -/
theorem accepted_entry (call : IoCall) (sink : SinkAnswers) (made : List SinkCall)
    (hcount : ∀ write ∈ WebSocket.accepted ((operation call, sink), (outcome call, made)),
      write.2 = write.1.length) :
    (WebSocket.accepted ((operation call, sink), (outcome call, made))).flatMap Prod.fst =
      call.accepted := by
  cases call with
  | pollWrite slice result =>
      rcases result with (_ | n) | _
      · rfl
      · have hn : n = slice.length := hcount (slice, n) (List.mem_singleton.mpr rfl)
        simp [WebSocket.accepted, operation, outcome, IoCall.accepted, hn]
      · rfl
  | pollRead room result => rfl
  | pollFlush result => rfl
  | pollShutdown result => rfl

/-- The bytes accepted are those of the messages, in order. -/
theorem flatten_writes (hcounts : ∀ write ∈ writes (history served), write.2 = write.1.length) :
    (writes (history served)).flatMap Prod.fst =
      acceptedBytes (served.map fun entry => entry.1.1) := by
  induction served with
  | nil => rfl
  | cons entry served ih =>
      obtain ⟨⟨call, sink⟩, made⟩ := entry
      rw [writes_cons] at hcounts ⊢
      rw [List.flatMap_append, List.map_cons, acceptedBytes_cons,
        ih fun write hwrite => hcounts write (List.mem_append_right _ hwrite),
        accepted_entry call sink made fun write hwrite =>
          hcounts write (List.mem_append_left _ hwrite)]

end Bytes

section Stream

variable {t : WebSocketTransport} {served : Served} {early : List UInt8}
  {incoming : List NextResult} {inputs : List (IoCall × SinkAnswers)}

/-- What is read is what the client sent, and at end of file all of it. -/
theorem reads_stream (hrun : run serve (withEarlyData incoming early) inputs = some (t, served))
    (hrooms : ∀ entry ∈ served, HasRoom entry.1.1) :
    returnedBytes (served.map fun entry => entry.1.1) <+: early ++ payloads incoming ∧
      ((served.map fun entry => entry.1.1).any IoCall.isEof = true →
        returnedBytes (served.map fun entry => entry.1.1) = early ++ payloads incoming) := by
  have hread := (transportInv_run hrun).read hrooms
  exact ⟨hread.prefixed, hread.all_of_eof⟩

/-- What the client is sent. -/
structure Response (served : Served) (binaries : List (List UInt8))
    (closes : List WebSocket.Message) : Prop where
  messages : sent (sinkCalls (history served)) =
    binaries.map WebSocket.Message.binary ++ closes
  bytes : binaries.flatten = acceptedBytes (served.map fun entry => entry.1.1)
  once : closes = [] ∨ closes = [.close]
  opened : (∀ entry ∈ served, ¬ IsShutdown entry.1.1) → closes = []
  flushed : Flushed (served.map fun entry => entry.1.1) →
    ∀ call, (sinkCalls (history served)).getLast? = some call →
      ∃ result, call = .pollFlush result ∧ WebSocket.Flushed result
  closed : (∃ entry ∈ served, entry.1.1 = .pollShutdown (.ready (.ok ()))) →
    closes = [.close] ∧ CloseFlushed (sinkCalls (history served))

/-- What a call made the sink do. -/
theorem sink_of_serve {t t' : WebSocketTransport} {call : IoCall} {sink : SinkAnswers}
    {made : List SinkCall} (h : serve t (call, sink) = some (t', made)) :
    (isRead call = true → made = []) ∧
      (call = .pollFlush (.ready (.ok ())) →
        ∃ b, made = [b] ∧ ∃ result, b = .pollFlush result ∧ WebSocket.Flushed result) := by
  have hstep := step_of_serve h
  constructor
  · intro hread
    cases call with
    | pollRead =>
        cases hstep
        rfl
    | _ => cases hread
  · rintro rfl
    have hresult := Option.some.inj hstep
    simp only [Prod.mk.injEq, outcome, OperationResult.flushed.injEq] at hresult
    obtain ⟨-, hflushed, rfl⟩ := hresult
    exact ⟨_, rfl, _, rfl, WebSocket.flushed_of_flushResult hflushed⟩

theorem writes_stream (hrun : run serve (withEarlyData incoming early) inputs = some (t, served))
    (hsink : SinkHeld served) : ∃ binaries closes, Response served binaries closes := by
  have htransport := transportInv_run hrun
  obtain ⟨hcounts, hmessages, -⟩ := htransport.written hsink
  refine ⟨(writes (history served)).map Prod.fst, if t.writeClosed then [.close] else [],
    ?_, ?_, ?_, ?_, ?_, ?_⟩
  · rw [hmessages, List.map_map]
    rfl
  · rw [← List.flatMap_def, flatten_writes hcounts]
  · cases t.writeClosed <;> simp
  · intro hnone
    rw [htransport.opened hnone]
    rfl
  · intro hflushed
    have hmade : ∀ entry ∈ served, ∃ t t', serve t entry.1 = some (t', entry.2) := by
      refine run_induction (P := fun served _ =>
        ∀ entry ∈ served, ∃ t t', serve t entry.1 = some (t', entry.2)) hrun (by simp) ?_
      intro served t input t' made ih hserve entry hentry
      rcases List.mem_append.mp hentry with hold | hnew
      · exact ih entry hold
      · obtain rfl := List.mem_singleton.mp hnew
        exact ⟨t, t', hserve⟩
    have hcalls : sinkCalls (history served) = served.flatMap fun entry => entry.2 := by
      simp [sinkCalls, history, List.flatMap_map]
    rw [hcalls]
    refine hflushed.last ?_ ?_
    · intro entry hentry
      obtain ⟨t, t', hserve⟩ := hmade entry hentry
      exact (sink_of_serve hserve).1
    · intro entry hentry
      obtain ⟨t, t', hserve⟩ := hmade entry hentry
      exact (sink_of_serve hserve).2
  · rintro ⟨entry, hentry, heq⟩
    have hflushed := htransport.flushed hsink entry hentry heq
    refine ⟨?_, hflushed⟩
    obtain ⟨before, after, flush, hsplit, -⟩ := hflushed
    have hclose : .close ∈ sent (sinkCalls (history served)) := by
      rw [hsplit]
      simp [SinkCall.message]
    rw [hmessages] at hclose
    cases hclosed : t.writeClosed with
    | true => rfl
    | false => simp [hclosed] at hclose

end Stream

end TrojanServer.WebSocketStream
