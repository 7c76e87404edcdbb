import TrojanServer.WebSocket

namespace TrojanServer.WebSocket

open TrojanServer.AsyncIo
open TrojanServer.StepMachine

section Messages

def sinkCalls (history : History) : List SinkCall := history.flatMap fun entry => entry.2.2

def SinkCall.message : SinkCall → List Message
  | .startSend message _ => [message]
  | _ => []

/-- The messages handed to the sink, in order. -/
def sent (calls : List SinkCall) : List Message := calls.flatMap SinkCall.message

/-- A write that was accepted, with the number of bytes reported for it. -/
def accepted : (Operation × SinkAnswers) × (OperationResult × List SinkCall) →
    List (List UInt8 × Nat)
  | ((.pollWrite buf, _), (.written (.ready (.ok n)), _)) => [(buf, n)]
  | _ => []

def writes (history : History) : List (List UInt8 × Nat) := history.flatMap accepted

/-- The sink refused a message.  A failed flush is reported and refuses nothing. -/
def SinkCall.failed : SinkCall → Bool
  | .pollReady (.ready (.error _)) => true
  | .startSend _ (.error _) => true
  | _ => false

/-- Everything handed over is out, or the connection is closed. -/
def Flushed (result : Poll (Except WsError Unit)) : Prop :=
  result = .ready (.ok ()) ∨ result = .ready (.error .connectionClosed) ∨
    result = .ready (.error .alreadyClosed)

theorem flushed_of_flushResult {result : Poll (Except WsError Unit)}
    (h : WebSocketTransport.flushResult result = .ready (.ok ())) : Flushed result := by
  match result with
  | .ready (.ok ()) => exact .inl rfl
  | .ready (.error .connectionClosed) => exact .inr (.inl rfl)
  | .ready (.error .alreadyClosed) => exact .inr (.inr rfl)
  | .ready (.error (.other _)) => cases h
  | .pending => cases h

variable (history : History)
  (entry : (Operation × SinkAnswers) × (OperationResult × List SinkCall))

@[simp] theorem sinkCalls_snoc :
    sinkCalls (history ++ [entry]) = sinkCalls history ++ entry.2.2 := by
  simp [sinkCalls]

@[simp] theorem writes_snoc : writes (history ++ [entry]) = writes history ++ accepted entry := by
  simp [writes]

@[simp] theorem sent_nil : sent [] = [] := rfl

@[simp] theorem sent_cons (call : SinkCall) (calls : List SinkCall) :
    sent (call :: calls) = call.message ++ sent calls := rfl

@[simp] theorem sent_append (calls calls' : List SinkCall) :
    sent (calls ++ calls') = sent calls ++ sent calls' := by
  simp [sent]

end Messages

section Step

variable {t t' : WebSocketTransport} {operation : Operation} {sink : SinkAnswers}
  {result : OperationResult} {calls : List SinkCall}

/-- What an operation does to the write side when the sink does not fail. -/
inductive WriteCase (t t' : WebSocketTransport) :
    (Operation × SinkAnswers) × (OperationResult × List SinkCall) → Prop
  | quiet {operation : Operation} {sink : SinkAnswers} {result : OperationResult}
      {calls : List SinkCall} (hclosed : t'.writeClosed = t.writeClosed)
      (haccepted : accepted ((operation, sink), (result, calls)) = []) (hsent : sent calls = [])
      (hresult : result ≠ .shutdown (.ready (.ok ()))) :
      WriteCase t t' ((operation, sink), (result, calls))
  | wrote {sink : SinkAnswers} {buf : List UInt8} {calls : List SinkCall}
      (hopen : t.writeClosed = false) (hclosed : t'.writeClosed = false)
      (hsent : sent calls = [.binary buf]) :
      WriteCase t t' ((.pollWrite buf, sink), (.written (.ready (.ok buf.length)), calls))
  | closed {sink : SinkAnswers} {flush : Poll (Except WsError Unit)}
      (hopen : t.writeClosed = false) (hclosed : t'.writeClosed = true) :
      WriteCase t t' ((.pollShutdown, sink),
        (.shutdown (WebSocketTransport.flushResult flush),
          [.pollReady (.ready (.ok ())), .startSend .close (.ok ()), .pollFlush flush]))
  | flushed {sink : SinkAnswers} {flush : Poll (Except WsError Unit)}
      (hopen : t.writeClosed = true) (hclosed : t'.writeClosed = true) :
      WriteCase t t' ((.pollShutdown, sink),
        (.shutdown (WebSocketTransport.flushResult flush), [.pollFlush flush]))

theorem writeClosed_pollNext (t : WebSocketTransport) (room : Nat) (incoming : List NextResult) :
    (t.pollNext room incoming).2.writeClosed = t.writeClosed := by
  fun_induction t.pollNext room incoming with
  | case6 => split <;> rfl
  | case5 _ _ _ ih => exact ih
  | case8 _ _ _ _ ih => exact ih
  | _ => rfl

theorem writeClosed_pollRead (t : WebSocketTransport) (room : Nat) :
    (t.pollRead room).2.writeClosed = t.writeClosed := by
  unfold WebSocketTransport.pollRead
  split
  · rfl
  split
  · simp only
    split <;> rfl
  · exact writeClosed_pollNext t room t.wsStream

theorem writeCase_pollWrite (t : WebSocketTransport) (buf : List UInt8) (sink : SinkAnswers)
    (hsink : ∀ call ∈ (t.pollWrite sink buf).2, call.failed = false) :
    WriteCase t t
      ((.pollWrite buf, sink), (.written (t.pollWrite sink buf).1, (t.pollWrite sink buf).2)) := by
  unfold WebSocketTransport.pollWrite at hsink ⊢
  split
  · exact .quiet rfl rfl rfl (by simp)
  rename_i hopen
  rw [if_neg hopen] at hsink
  have hopen : t.writeClosed = false := by
    cases hclosed : t.writeClosed with
    | false => rfl
    | true => simp [hclosed] at hopen
  match hready : sink.pollReady with
  | .pending => exact .quiet rfl rfl rfl (by simp)
  | .ready (.error e) =>
      rw [hready] at hsink
      exact absurd (hsink _ List.mem_cons_self) (by simp [SinkCall.failed])
  | .ready (.ok ()) =>
      rw [hready] at hsink
      match hsend : sink.startSend with
      | .ok () => exact .wrote hopen hopen rfl
      | .error e =>
          simp only [hsend] at hsink
          have hsent := hsink _ (List.mem_cons_of_mem _ List.mem_cons_self)
          exact absurd hsent (by simp [SinkCall.failed])

theorem writeCase_pollShutdown (t : WebSocketTransport) (sink : SinkAnswers)
    (hsink : ∀ call ∈ (t.pollShutdown sink).1.2, call.failed = false) :
    WriteCase t (t.pollShutdown sink).2 ((.pollShutdown, sink),
      (.shutdown (t.pollShutdown sink).1.1, (t.pollShutdown sink).1.2)) := by
  unfold WebSocketTransport.pollShutdown at hsink ⊢
  split
  · rename_i hclosed
    exact .flushed hclosed hclosed
  rename_i hopen
  rw [if_neg hopen] at hsink
  have hopen := Bool.eq_false_iff.mpr hopen
  match hready : sink.pollReady with
  | .pending => exact .quiet rfl rfl rfl (by simp)
  | .ready (.error e) =>
      simp only [hready] at hsink
      exact absurd (hsink _ List.mem_cons_self) (by simp [SinkCall.failed])
  | .ready (.ok ()) =>
      simp only [hready] at hsink
      match hsend : sink.startSend with
      | .ok () => exact .closed hopen rfl
      | .error e =>
          simp only [hsend] at hsink
          have hsent := hsink _ (List.mem_cons_of_mem _ List.mem_cons_self)
          exact absurd hsent (by simp [SinkCall.failed])

theorem writeCase_step (hstep : step t (operation, sink) = some (t', (result, calls)))
    (hsink : ∀ call ∈ calls, call.failed = false) :
    WriteCase t t' ((operation, sink), (result, calls)) := by
  cases operation with
  | pollRead room =>
      cases hstep
      exact .quiet (writeClosed_pollRead t room) rfl rfl (by simp)
  | pollWrite buf =>
      cases hstep
      exact writeCase_pollWrite t buf sink hsink
  | pollFlush =>
      cases hstep
      exact .quiet rfl rfl rfl (by simp)
  | pollShutdown =>
      cases hstep
      exact writeCase_pollShutdown t sink hsink

end Step

section Run

variable {history : History} {t t' : WebSocketTransport}
  {entry : (Operation × SinkAnswers) × (OperationResult × List SinkCall)}

structure WriteInv (history : History) (t : WebSocketTransport) : Prop where
  counts : ∀ write ∈ writes history, write.2 = write.1.length
  messages : sent (sinkCalls history) = (writes history).map (fun write => .binary write.1) ++
    if t.writeClosed then [.close] else []
  closed : t.writeClosed = true → .startSend .close (.ok ()) ∈ sinkCalls history

/-- The close was handed to the sink, and a later flush pushed it out. -/
def CloseFlushed (calls : List SinkCall) : Prop :=
  ∃ before after flush, calls = before ++ .startSend .close (.ok ()) :: after ∧
    .pollFlush flush ∈ after ∧ Flushed flush

theorem WriteInv.step (h : WriteInv history t) (hcase : WriteCase t t' entry) :
    WriteInv (history ++ [entry]) t' := by
  obtain ⟨hcounts, hmessages, hclose⟩ := h
  cases hcase with
  | quiet hclosed haccepted hsent hresult =>
      refine ⟨?_, ?_, ?_⟩
      · simpa [haccepted] using hcounts
      · simpa [haccepted, hsent, hclosed] using hmessages
      · intro hclosed'
        simp [hclose (hclosed ▸ hclosed')]
  | wrote hopen hclosed hsent =>
      refine ⟨?_, ?_, ?_⟩
      · intro write hwrite
        rw [writes_snoc] at hwrite
        rcases List.mem_append.mp hwrite with hwrite | hwrite
        · exact hcounts write hwrite
        · rw [List.mem_singleton.mp hwrite]
      · simp [hmessages, hsent, hopen, hclosed, accepted]
      · intro hclosed'
        exact absurd (hclosed.symm.trans hclosed') (by decide)
  | closed hopen hclosed =>
      refine ⟨?_, ?_, ?_⟩
      · simpa [accepted] using hcounts
      · simp [hmessages, hopen, hclosed, accepted, SinkCall.message]
      · intro _
        simp
  | flushed hopen hclosed =>
      refine ⟨?_, ?_, ?_⟩
      · simpa [accepted] using hcounts
      · simp [hmessages, hopen, hclosed, accepted, SinkCall.message]
      · intro _
        simp [hclose hopen]

theorem WriteInv.closeFlushed (h : WriteInv history t) (hcase : WriteCase t t' entry)
    (hresult : entry.2.1 = .shutdown (.ready (.ok ()))) :
    CloseFlushed (sinkCalls history ++ entry.2.2) := by
  cases hcase with
  | quiet _ _ _ hne => exact absurd hresult hne
  | wrote _ _ _ => cases hresult
  | @closed _ flush _ _ =>
      have hflushed := flushed_of_flushResult (OperationResult.shutdown.inj hresult)
      exact ⟨sinkCalls history ++ [.pollReady (.ready (.ok ()))], [.pollFlush flush], flush,
        by simp, by simp, hflushed⟩
  | @flushed _ flush hopen _ =>
      have hflushed := flushed_of_flushResult (OperationResult.shutdown.inj hresult)
      obtain ⟨before, after, hsplit⟩ := List.append_of_mem (h.closed hopen)
      exact ⟨before, after ++ [.pollFlush flush], flush, by simp [hsplit], by simp, hflushed⟩

end Run

/-- If the sink never fails, it is handed one binary message for each write that was
accepted, of all its bytes, and after them at most one close; a shutdown that is done has
handed over the close and seen it flushed. -/
theorem writes_then_one_close {early : List UInt8} {incoming : List NextResult}
    {operations : List (Operation × SinkAnswers)} {t : WebSocketTransport} {history : History}
    (hrun : run step (withEarlyData incoming early) operations = some (t, history))
    (hsink : ∀ call ∈ sinkCalls history, call.failed = false) :
    (∀ write ∈ writes history, write.2 = write.1.length) ∧
      (∃ closes, sent (sinkCalls history) =
          (writes history).map (fun write => .binary write.1) ++ closes ∧
        (closes = [] ∨ closes = [.close])) ∧
      ∀ before operation sink calls after,
        history = before ++ ((operation, sink), (.shutdown (.ready (.ok ())), calls)) :: after →
          CloseFlushed (sinkCalls before ++ calls) := by
  have hinv := run_induction_events
    (P := fun history t => (∀ call ∈ sinkCalls history, call.failed = false) → WriteInv history t)
    (Q := fun before _ output => (∀ call ∈ sinkCalls before ++ output.2, call.failed = false) →
      output.1 = .shutdown (.ready (.ok ())) → CloseFlushed (sinkCalls before ++ output.2))
    hrun (along_trivial _ _) ?_ ?_
  · obtain ⟨hinv, hevents⟩ := hinv
    obtain ⟨hcounts, hmessages, -⟩ := hinv hsink
    refine ⟨hcounts, ⟨_, hmessages, ?_⟩, ?_⟩
    · cases t.writeClosed <;> simp
    · intro before operation sink calls after hsplit
      refine hevents before _ _ after hsplit ?_ rfl
      intro call hcall
      apply hsink
      rw [hsplit, sinkCalls, List.flatMap_append, List.flatMap_cons, ← List.append_assoc]
      exact List.mem_append_left _ hcall
  · intro _
    exact ⟨by simp [writes], by simp [sinkCalls, writes, withEarlyData],
      by simp [withEarlyData]⟩
  · rintro history t ⟨operation, sink⟩ t' ⟨result, calls⟩ hinv - hstep
    refine ⟨?_, ?_⟩
    · intro hnone
      rw [sinkCalls_snoc] at hnone
      have hcase := writeCase_step hstep fun call hcall => hnone call (by simp [hcall])
      exact (hinv fun call hcall => hnone call (by simp [hcall])).step hcase
    · intro hnone hresult
      have hcase := writeCase_step hstep fun call hcall => hnone call (by simp [hcall])
      exact (hinv fun call hcall => hnone call (by simp [hcall])).closeFlushed hcase hresult

def sampleSink : SinkAnswers := ⟨.ready (.ok ()), .ok (), .ready (.ok ())⟩

/-- Two writes, one of them while the sink is full, and a shutdown polled until the close
that is waiting for room has gone out on a connection closed meanwhile. -/
def sampleOperations : List (Operation × SinkAnswers) :=
  [(.pollWrite [1, 2], sampleSink), (.pollWrite [3], { sampleSink with pollReady := .pending }),
    (.pollWrite [3], sampleSink), (.pollShutdown, { sampleSink with pollReady := .pending }),
    (.pollRead 8, sampleSink), (.pollShutdown, { sampleSink with pollFlush := .pending }),
    (.pollWrite [4], sampleSink),
    (.pollShutdown, { sampleSink with pollFlush := .ready (.error .connectionClosed) })]

theorem writes_then_one_close_sample :
    ∃ t history, run step (withEarlyData [] []) sampleOperations = some (t, history) ∧
      (∀ call ∈ sinkCalls history, call.failed = false) ∧
      writes history = [([1, 2], 2), ([3], 1)] ∧
      (∃ closes, sent (sinkCalls history) = [.binary [1, 2], .binary [3]] ++ closes ∧
        (closes = [] ∨ closes = [.close])) ∧
      CloseFlushed (sinkCalls history) := by
  obtain ⟨t, before, entry, hrun, hsink, hwrites, hresult⟩ :
      ∃ t before entry,
        run step (withEarlyData [] []) sampleOperations = some (t, before ++ [entry]) ∧
        (∀ call ∈ sinkCalls (before ++ [entry]), call.failed = false) ∧
        writes (before ++ [entry]) = [([1, 2], 2), ([3], 1)] ∧
        entry.2.1 = .shutdown (.ready (.ok ())) :=
    ⟨_, ((run step (withEarlyData [] []) (sampleOperations.take 7)).map Prod.snd).getD [], _,
      rfl, by decide, rfl, rfl⟩
  obtain ⟨⟨operation, sink⟩, ⟨result, calls⟩⟩ := entry
  subst hresult
  obtain ⟨-, hsent, hclose⟩ := writes_then_one_close hrun hsink
  refine ⟨t, _, hrun, hsink, hwrites, by simpa [hwrites] using hsent, ?_⟩
  rw [sinkCalls_snoc]
  exact hclose before operation sink calls [] rfl

end TrojanServer.WebSocket
