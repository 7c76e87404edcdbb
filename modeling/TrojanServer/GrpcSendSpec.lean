import TrojanServer.GrpcSend

namespace TrojanServer.GrpcSend

open TrojanServer.AsyncIo

inductive Op where
  | headers (endOfStream : Bool)
  | data (chunk : List UInt8)
  | trailers
  deriving DecidableEq

/-- The frame a call puts on the stream. -/
def H2Call.op : H2Call → Option Op
  | .sendResponse _ endOfStream _ => some (.headers endOfStream)
  | .sendData chunk _ => some (.data chunk)
  | .sendTrailers _ _ => some .trailers
  | _ => none

def ops (calls : List H2Call) : List Op := calls.filterMap H2Call.op

def Op.bytes : Op → List UInt8
  | .data chunk => chunk
  | _ => []

def sent (ops : List Op) : List UInt8 := ops.flatMap Op.bytes

def H2Call.isFailure : H2Call → Bool
  | .sendResponse _ _ (.error _) => true
  | .pollCapacity (.ready (some (.error _))) => true
  | .pollCapacity (.ready none) => true
  | .sendData _ (.error _) => true
  | .sendTrailers _ (.error _) => true
  | _ => false

def SendSide.unsent (s : SendSide) : List UInt8 :=
  (s.currentFrame.getD []).drop s.currentFrameOffset ++ s.sendQueue.flatten

/-- What may be put on the stream before it is closed: headers once, then data. -/
inductive Emits : Responder → List Op → Responder → Prop
  | nil (r : Responder) : Emits r [] r
  | headers {log : List Op} {r : Responder} (h : Emits .opened log r) :
      Emits .pending (.headers false :: log) r
  | data {log : List Op} {r : Responder} (chunk : List UInt8) (h : Emits .opened log r) :
      Emits .opened (.data chunk :: log) r

theorem Emits.trans {r₁ r₂ r₃ : Responder} {log log' : List Op} (h : Emits r₁ log r₂)
    (h' : Emits r₂ log' r₃) : Emits r₁ (log ++ log') r₃ := by
  induction h with
  | nil _ => exact h'
  | headers _ ih => exact .headers (ih h')
  | data chunk _ ih => exact .data chunk (ih h')

@[simp] theorem ops_append (calls calls' : List H2Call) :
    ops (calls ++ calls') = ops calls ++ ops calls' := List.filterMap_append

@[simp] theorem sent_append (log log' : List Op) : sent (log ++ log') = sent log ++ sent log' :=
  List.flatMap_append

/-- The calls of a send loop that has not failed. -/
structure Sends (s : SendSide) (used : List H2Call) (s' : SendSide) : Prop where
  conserved : sent (ops used) ++ s'.unsent = s.unsent
  emits : Emits s.responder (ops used) s'.responder
  maxMessageSize : s'.maxMessageSize = s.maxMessageSize
  writeClosed : s'.writeClosed = s.writeClosed

theorem Sends.refl (s : SendSide) : Sends s [] s :=
  ⟨rfl, .nil _, rfl, rfl⟩

theorem Sends.trans {s₁ s₂ s₃ : SendSide} {used used' : List H2Call} (h : Sends s₁ used s₂)
    (h' : Sends s₂ used' s₃) : Sends s₁ (used ++ used') s₃ where
  conserved := by
    rw [ops_append, sent_append, List.append_assoc, h'.conserved, h.conserved]
  emits := by
    rw [ops_append]
    exact h.emits.trans h'.emits
  maxMessageSize := h'.maxMessageSize.trans h.maxMessageSize
  writeClosed := h'.writeClosed.trans h.writeClosed

/-- The stream had no capacity to give. -/
def Starved (calls : List H2Call) : Prop := .pollCapacity .pending ∈ calls

theorem starved_append {calls calls' : List H2Call} :
    Starved (calls ++ calls') ↔ Starved calls ∨ Starved calls' :=
  List.mem_append

/-- How a poll of the send loops ends; `Done` is what it has achieved if it is ready. -/
inductive SendCase (s : SendSide) (calls : List H2Call) (Done : SendSide → Prop) :
    Polled Unit → Prop
  | failed (used : List H2Call) {rest : List H2Call} {s' : SendSide} {e : IoError}
      (hcalls : calls = used ++ rest) (hfailure : used.any H2Call.isFailure = true) :
      SendCase s calls Done ⟨s', .ready (.error e), rest⟩
  | complete (used : List H2Call) {rest : List H2Call} {s' : SendSide}
      (hcalls : calls = used ++ rest) (hsends : Sends s used s') (hserved : ¬ Starved used)
      (hdone : Done s') : SendCase s calls Done ⟨s', .ready (.ok ()), rest⟩
  | waiting (used : List H2Call) {rest : List H2Call} {s' : SendSide}
      (hcalls : calls = used ++ rest) (hsends : Sends s used s') (hunsent : s'.unsent ≠ []) :
      SendCase s calls Done ⟨s', .pending, rest⟩

theorem SendCase.prepend {s s₁ : SendSide} {used calls : List H2Call} {Done : SendSide → Prop}
    {p : Polled Unit} (hsends : Sends s used s₁) (hserved : ¬ Starved used)
    (h : SendCase s₁ calls Done p) : SendCase s (used ++ calls) Done p := by
  cases h with
  | failed _ hcalls hfailure =>
      rw [hcalls, ← List.append_assoc]
      exact .failed _ rfl (by simp [hfailure])
  | complete _ hcalls hnext hserved' hdone =>
      rw [hcalls, ← List.append_assoc]
      refine .complete _ rfl (hsends.trans hnext) ?_ hdone
      rw [starved_append]
      exact not_or.mpr ⟨hserved, hserved'⟩
  | waiting _ hcalls hnext hunsent =>
      rw [hcalls, ← List.append_assoc]
      exact .waiting _ rfl (hsends.trans hnext) hunsent

theorem SendCase.sends {s : SendSide} {calls : List H2Call} {Done : SendSide → Prop}
    {p : Polled Unit} (h : SendCase s calls Done p) (hok : ∀ e, p.result ≠ .ready (.error e)) :
    ∃ used, calls = used ++ p.rest ∧ Sends s used p.state := by
  cases h with
  | failed _ _ _ => exact absurd rfl (hok _)
  | complete used hcalls hsends _ _ => exact ⟨used, hcalls, hsends⟩
  | waiting used hcalls hsends _ => exact ⟨used, hcalls, hsends⟩

theorem SendCase.andThen {s : SendSide} {calls : List H2Call} {Done Done' : SendSide → Prop}
    {polled : Option (Polled Unit)} {next : SendSide → List H2Call → Option (Polled Unit)}
    {p : Polled Unit} (h : GrpcSend.andThen polled next = some p)
    (hfirst : ∀ p, polled = some p → SendCase s calls Done p)
    (hnext : ∀ s' rest, Done s' → next s' rest = some p → SendCase s' rest Done' p) :
    SendCase s calls Done' p := by
  unfold GrpcSend.andThen at h
  split at h
  · cases hfirst _ rfl with
    | complete used hcalls hsends hserved hdone =>
        rw [hcalls]
        exact .prepend hsends hserved (hnext _ _ hdone h)
  · rename_i hother
    cases hfirst _ h with
    | failed used hcalls hfailure => exact .failed used hcalls hfailure
    | complete used hcalls hsends _ _ => exact absurd h (hother _ _)
    | waiting used hcalls hsends hunsent => exact .waiting used hcalls hsends hunsent

section Loops

variable {s : SendSide}

/-- The frame is sent and the queue as it was. -/
def FrameSent (s s' : SendSide) : Prop :=
  s'.unsent = s.sendQueue.flatten ∧ s'.sendQueue = s.sendQueue

theorem unsent_setOffset {frame : List UInt8} (hframe : s.currentFrame = some frame)
    (offset : Nat) :
    (s.setOffset offset).unsent = frame.drop offset ++ s.sendQueue.flatten := by
  change (s.currentFrame.getD []).drop offset ++ _ = _
  rw [hframe]
  rfl

/-- One chunk of the current frame. -/
theorem sends_chunk {frame : List UInt8} (hframe : s.currentFrame = some frame)
    (hopen : s.responder = .opened) (offset n : Nat) :
    let size := min (frame.length - offset) (n + 1)
    Sends (s.setOffset offset)
      [.capacity (n + 1), .sendData ((frame.drop offset).take size) (.ok ())]
      (s.setOffset (offset + size)) where
  conserved := by
    rw [unsent_setOffset hframe, unsent_setOffset hframe]
    simp only [ops, sent, H2Call.op, Op.bytes, List.filterMap_cons, List.filterMap_nil,
      List.flatMap_cons, List.flatMap_nil, List.append_nil]
    rw [← List.append_assoc, ← List.drop_drop, List.take_append_drop]
  emits := by
    change Emits s.responder [.data _] s.responder
    rw [hopen]
    exact .data _ (.nil _)
  maxMessageSize := rfl
  writeClosed := rfl

/-- Asking for capacity puts nothing on the stream. -/
theorem sends_poll (s : SendSide) (n : Nat) (result : Poll (Option (Except H2Error Nat))) :
    Sends s [.capacity 0, .reserveCapacity n, .pollCapacity result] s :=
  ⟨rfl, .nil _, rfl, rfl⟩

theorem sendLoop_cases {frame : List UInt8} (hframe : s.currentFrame = some frame)
    (hopen : s.responder = .opened) (calls : List H2Call) (offset : Nat) {p : Polled Unit}
    (h : s.sendLoop frame calls offset = some p) :
    SendCase (s.setOffset offset) calls (FrameSent s) p := by
  fun_induction SendSide.sendLoop s frame calls offset with
  | case1 calls offset remaining hzero =>
      cases h
      refine .complete [] rfl (.refl _) List.not_mem_nil ⟨?_, rfl⟩
      rw [unsent_setOffset hframe, List.drop_eq_nil_of_le (Nat.sub_eq_zero_iff_le.mp hzero),
        List.nil_append]
  | case2 offset remaining _ calls capacity ih =>
      exact .prepend (sends_poll _ _ _) (by simp [Starved]) (ih h)
  | case3 | case4 =>
      cases h
      exact .failed [_, _, _] rfl rfl
  | case5 offset remaining hpos calls =>
      cases h
      refine .waiting [_, _, _] rfl (sends_poll _ _ _) ?_
      rw [unsent_setOffset hframe]
      simp
      omega
  | case7 offset remaining _ n calls size ih =>
      exact .prepend (sends_chunk hframe hopen offset n) (by simp [Starved]) (ih h)
  | case8 =>
      cases h
      exact .failed [_, _] rfl rfl
  | case6 | case9 | case10 => cases h

theorem openStream_cases {calls : List H2Call} {p : Polled Unit}
    (h : s.openStream calls = some p) :
    SendCase s calls (fun s' => s' = { s with responder := .opened }) p := by
  unfold SendSide.openStream at h
  split at h
  · rename_i hopen
    cases h
    exact .complete [] rfl (.refl s) List.not_mem_nil (by rw [← hopen])
  · rename_i hpending
    split at h
    · rename_i headers result rest
      split at h
      · split at h
        · cases h
          refine .complete [.sendResponse headers false (.ok ())] rfl
            ⟨rfl, ?_, rfl, rfl⟩ (by simp [Starved]) rfl
          change Emits s.responder [.headers false] .opened
          rw [hpending]
          exact .headers (.nil _)
        · cases h
          exact .failed [_] rfl rfl
      · cases h
    · cases h

theorem pollSendCurrentFrame_cases {frame : List UInt8} (hframe : s.currentFrame = some frame)
    {calls : List H2Call} {p : Polled Unit} (h : s.pollSendCurrentFrame calls = some p) :
    SendCase s calls (FrameSent s) p := by
  simp only [SendSide.pollSendCurrentFrame, hframe] at h
  refine .andThen h (fun _ => openStream_cases) ?_
  rintro _ rest rfl hloop
  exact sendLoop_cases (s := { s with responder := .opened }) hframe rfl rest _ hloop

theorem sends_clearFrame (h : s.unsent = s.sendQueue.flatten) (n : Nat) :
    Sends s [] { s.clearFrame with sendQueueBytes := n } :=
  ⟨h.symm, .nil _, rfl, rfl⟩

/-- No frame is current and the queue is as it was. -/
def Cleared (s s' : SendSide) : Prop := s'.currentFrame = none ∧ s'.sendQueue = s.sendQueue

theorem finishFrame_cases {calls : List H2Call} {p : Polled Unit}
    (h : s.finishFrame calls = some p) : SendCase s calls (Cleared s) p := by
  unfold SendSide.finishFrame at h
  split at h
  · rename_i hnone
    cases h
    exact .complete [] rfl (.refl s) List.not_mem_nil ⟨hnone, rfl⟩
  · rename_i frame hframe
    split at h
    · refine .andThen h (fun _ => pollSendCurrentFrame_cases hframe) ?_
      rintro s' rest ⟨hunsent, hqueue⟩ hclear
      cases hclear
      exact .complete [] rfl (sends_clearFrame (by rw [hunsent, hqueue]) _) List.not_mem_nil
        ⟨rfl, hqueue⟩
    · rename_i hzero
      cases h
      have hunsent : s.unsent = s.sendQueue.flatten := by
        rw [SendSide.unsent, hframe, Option.getD_some, List.drop_eq_nil_of_le (by omega),
          List.nil_append]
      exact .complete [] rfl (sends_clearFrame hunsent s.sendQueueBytes) List.not_mem_nil
        ⟨rfl, rfl⟩

/-- Nothing is left to send. -/
def Emptied (s : SendSide) : Prop := s.currentFrame = none ∧ s.sendQueue = []

theorem unsent_of_emptied (h : Emptied s) : s.unsent = [] := by
  simp [SendSide.unsent, h.1, h.2]

theorem sends_pop {frame : List UInt8} {queue : List (List UInt8)} (hnone : s.currentFrame = none)
    (hqueue : s.sendQueue = frame :: queue) :
    Sends s [] { s with sendQueue := queue, currentFrame := some frame, currentFrameOffset := 0 } :=
  ⟨by simp [SendSide.unsent, hnone, hqueue, ops, sent], .nil _, rfl, rfl⟩

theorem sendQueued_cases {queue : List (List UInt8)} (hqueue : s.sendQueue = queue)
    {calls : List H2Call} {p : Polled Unit} (h : SendSide.sendQueued queue s calls = some p) :
    SendCase s calls Emptied p := by
  induction queue generalizing s calls with
  | nil =>
      cases finishFrame_cases h with
      | failed used hcalls hfailure => exact .failed used hcalls hfailure
      | complete used hcalls hsends hserved hdone =>
          exact .complete used hcalls hsends hserved ⟨hdone.1, hdone.2.trans hqueue⟩
      | waiting used hcalls hsends hunsent => exact .waiting used hcalls hsends hunsent
  | cons frame queue ih =>
      refine .andThen h (fun _ => finishFrame_cases) ?_
      rintro s' rest ⟨hnone, hsame⟩ hrest
      exact .prepend (sends_pop hnone (hsame.trans hqueue)) List.not_mem_nil (ih rfl hrest)

theorem pollSendQueued_cases {calls : List H2Call} {p : Polled Unit}
    (h : s.pollSendQueued calls = some p) : SendCase s calls Emptied p :=
  sendQueued_cases rfl h

end Loops

section Step

variable {s s' : SendSide}

theorem unsent_push (s : SendSide) (frame : List UInt8) :
    (s.push frame).unsent = s.unsent ++ frame := by
  simp [SendSide.unsent, SendSide.push]

def SendSide.closed (s : SendSide) : SendSide := { s with writeClosed := true }

/-- The call that ends the response: trailers, or headers that say so if none were sent. -/
def Closes (r : Responder) (call : H2Call) : Prop :=
  r = .opened ∧ call.op = some .trailers ∨ r = .pending ∧ call.op = some (.headers true)

/-- What one poll of the transport does. -/
inductive StepCase (s : SendSide) : SendOp × List H2Call → SendSide × Answer → Prop
  | failed {op : SendOp} {calls : List H2Call} {r : SendSide × Answer}
      (hfailure : calls.any H2Call.isFailure = true) : StepCase s (op, calls) r
  | refused {buf : List UInt8} {e : IoError} (hclosed : s.writeClosed = true) :
      StepCase s (.write buf, []) (s, .wrote (.ready (.error e)))
  | full {buf : List UInt8} {calls : List H2Call} {s' : SendSide} (hopen : s.writeClosed = false)
      (hsends : Sends s calls s') : StepCase s (.write buf, calls) (s', .wrote .pending)
  | accepted {buf : List UInt8} {n : Nat} {used used' : List H2Call} {s₁ s' : SendSide}
      (hopen : s.writeClosed = false) (hn : n = min buf.length s.maxMessageSize)
      (hsends : Sends s used s₁)
      (hsends' : Sends (s₁.push (GrpcCodec.encodeGrpcMessage (buf.take n))) used' s') :
      StepCase s (.write buf, used ++ used') (s', .wrote (.ready (.ok n)))
  | flushed {calls : List H2Call} {s' : SendSide} (hsends : Sends s calls s')
      (hserved : ¬ Starved calls) (hempty : Emptied s') :
      StepCase s (.flush, calls) (s', .done (.ready (.ok ())))
  | blocked {calls : List H2Call} {s' : SendSide} (hsends : Sends s calls s')
      (hunsent : s'.unsent ≠ []) : StepCase s (.flush, calls) (s', .done .pending)
  | already (hclosed : s.writeClosed = true) (hempty : Emptied s) :
      StepCase s (.shutdown, []) (s, .done (.ready (.ok ())))
  | finished {used : List H2Call} {call : H2Call} {s' : SendSide}
      (hagain : ¬ (s.writeClosed = true ∧ Emptied s)) (hsends : Sends s.closed used s')
      (hempty : Emptied s') (hcloses : Closes s'.responder call) :
      StepCase s (.shutdown, used ++ [call]) (s', .done (.ready (.ok ())))
  | closing {calls : List H2Call} {s' : SendSide} (hsends : Sends s.closed calls s')
      (hunsent : s'.unsent ≠ []) : StepCase s (.shutdown, calls) (s', .done .pending)

theorem write_cases {buf : List UInt8} {calls : List H2Call} {result : Poll (Except IoError Nat)}
    (h : s.pollWrite buf calls = some ⟨s', result, []⟩) :
    StepCase s (.write buf, calls) (s', .wrote result) := by
  unfold SendSide.pollWrite at h
  split at h
  · rename_i hclosed
    cases h
    exact .refused hclosed
  rename_i hopen
  have hopen : s.writeClosed = false := by simpa using hopen
  split at h
  · cases h
  · rename_i e rest hfirst
    cases h
    cases pollSendQueued_cases hfirst with
    | failed used hcalls hfailure => exact .failed (by simp [hcalls, hfailure])
  · rename_i s₁ first rest hok hfirst
    obtain ⟨used, hcalls, hsends⟩ := (pollSendQueued_cases hfirst).sends hok
    split at h
    · cases h
      rw [hcalls, List.append_nil]
      exact .full hopen hsends
    simp only at h
    split at h
    · cases h
    · rename_i e rest' hsecond
      cases h
      cases pollSendQueued_cases hsecond with
      | failed used' hcalls' hfailure => exact .failed (by simp [hcalls, hcalls', hfailure])
    · rename_i s₂ second rest' hok' hsecond
      cases h
      obtain ⟨used', hcalls', hsends'⟩ := (pollSendQueued_cases hsecond).sends hok'
      rw [hcalls]
      simp only at hcalls'
      rw [hcalls', List.append_nil]
      exact .accepted hopen (by rw [hsends.maxMessageSize]) hsends hsends'

theorem flush_cases {calls : List H2Call} {result : Poll (Except IoError Unit)}
    (h : s.pollFlush calls = some ⟨s', result, []⟩) :
    StepCase s (.flush, calls) (s', .done result) := by
  cases pollSendQueued_cases h with
  | failed used hcalls hfailure => exact .failed (by simp [hcalls, hfailure])
  | complete used hcalls hsends hserved hempty =>
      rw [hcalls, List.append_nil]
      exact .flushed hsends hserved hempty
  | waiting used hcalls hsends hunsent =>
      rw [hcalls, List.append_nil]
      exact .blocked hsends hunsent

theorem finish_cases {calls : List H2Call} {p : Polled Unit} (h : s.finish calls = some p) :
    p.state = s ∧ ∃ call, calls = call :: p.rest ∧ (call.isFailure = true ∨
      p.result = .ready (.ok ()) ∧ Closes s.responder call) := by
  unfold SendSide.finish at h
  split at h
  · rename_i trailers result rest hopen
    split at h
    · cases h
      rcases result with e | ⟨⟨⟩⟩
      · exact ⟨by simp only; split <;> rfl, _, by simp only; split <;> rfl, .inl rfl⟩
      · exact ⟨rfl, _, rfl, .inr ⟨rfl, .inl ⟨hopen, rfl⟩⟩⟩
    · cases h
  · rename_i headers result rest hpending
    split at h
    · cases h
      rcases result with e | ⟨⟨⟩⟩
      · exact ⟨by simp only; split <;> rfl, _, by simp only; split <;> rfl, .inl rfl⟩
      · exact ⟨rfl, _, rfl, .inr ⟨rfl, .inr ⟨hpending, rfl⟩⟩⟩
    · cases h
  · cases h

theorem shutdown_cases {calls : List H2Call} {result : Poll (Except IoError Unit)}
    (h : s.pollShutdown calls = some ⟨s', result, []⟩) :
    StepCase s (.shutdown, calls) (s', .done result) := by
  unfold SendSide.pollShutdown at h
  split at h
  · rename_i hdone
    cases h
    simp only [Bool.and_eq_true, List.isEmpty_iff, Option.isNone_iff_eq_none] at hdone
    exact .already hdone.1.1 ⟨hdone.2, hdone.1.2⟩
  · rename_i hagain
    simp only [Bool.and_eq_true, List.isEmpty_iff, Option.isNone_iff_eq_none] at hagain
    change andThen (s.closed.pollSendQueued calls) _ = _ at h
    unfold andThen at h
    split at h
    · rename_i s₁ rest hflush
      cases pollSendQueued_cases hflush with
      | complete used hcalls hsends _ hempty =>
          obtain ⟨hstate, call, hrest, hclose⟩ := finish_cases h
          rcases hclose with hfailure | ⟨hresult, hcloses⟩
          · exact .failed (by simp [hcalls, hrest, hfailure])
          · simp only at hstate hresult hrest
            rw [hcalls, hrest, hstate, hresult]
            refine .finished ?_ hsends hempty hcloses
            rintro ⟨hclosed, hnone, hqueue⟩
            exact hagain ⟨⟨hclosed, hqueue⟩, hnone⟩
    · rename_i hother
      cases pollSendQueued_cases h with
      | failed used hcalls hfailure => exact .failed (by simp [hcalls, hfailure])
      | complete => exact absurd h (hother _ _)
      | waiting used hcalls hsends hunsent =>
          rw [hcalls, List.append_nil]
          exact .closing hsends hunsent

/-- A step is one of the three polls, which has used up the calls it was given. -/
inductive StepPoll (s : SendSide) : SendOp × List H2Call → SendSide × Answer → Prop
  | write {buf : List UInt8} {calls : List H2Call} {s' : SendSide}
      {result : Poll (Except IoError Nat)} (h : s.pollWrite buf calls = some ⟨s', result, []⟩) :
      StepPoll s (.write buf, calls) (s', .wrote result)
  | flush {calls : List H2Call} {s' : SendSide} {result : Poll (Except IoError Unit)}
      (h : s.pollFlush calls = some ⟨s', result, []⟩) :
      StepPoll s (.flush, calls) (s', .done result)
  | shutdown {calls : List H2Call} {s' : SendSide} {result : Poll (Except IoError Unit)}
      (h : s.pollShutdown calls = some ⟨s', result, []⟩) :
      StepPoll s (.shutdown, calls) (s', .done result)

theorem stepPoll {input : SendOp × List H2Call} {r : SendSide × Answer}
    (h : s.step input = some r) : StepPoll s input r := by
  obtain ⟨op, calls⟩ := input
  cases op with
  | write buf =>
      simp only [SendSide.step] at h
      split at h
      · rename_i hwrite
        cases h
        exact .write hwrite
      · cases h
  | flush =>
      simp only [SendSide.step] at h
      split at h
      · rename_i hflush
        cases h
        exact .flush hflush
      · cases h
  | shutdown =>
      simp only [SendSide.step] at h
      split at h
      · rename_i hshutdown
        cases h
        exact .shutdown hshutdown
      · cases h

theorem step_cases {input : SendOp × List H2Call} {r : SendSide × Answer}
    (h : s.step input = some r) : StepCase s input r := by
  cases stepPoll h with
  | write hwrite => exact write_cases hwrite
  | flush hflush => exact flush_cases hflush
  | shutdown hshutdown => exact shutdown_cases hshutdown

end Step

end TrojanServer.GrpcSend
