import TrojanServer.GrpcFrames
import TrojanServer.GrpcSendSpec

namespace TrojanServer.GrpcSend

open TrojanServer.AsyncIo
open TrojanServer.GrpcCodec
open TrojanServer.StepMachine

/-- The count is exact, no frame is empty and the current one is not at its end. -/
structure QueueInv (s : SendSide) : Prop where
  bytes : s.sendQueueBytes = (s.sendQueue.map List.length).sum + (s.currentFrame.getD []).length
  frames : ∀ frame ∈ s.sendQueue, frame ≠ []
  current : ∀ frame, s.currentFrame = some frame → s.currentFrameOffset < frame.length

/-- How a poll of the send loops leaves the transport. -/
structure Keeps (s : SendSide) (Done : SendSide → Prop) (p : Polled Unit) : Prop where
  inv : QueueInv p.state
  bytes : p.state.sendQueueBytes ≤ s.sendQueueBytes
  maxMessageSize : p.state.maxMessageSize = s.maxMessageSize
  done : p.result = .ready (.ok ()) → Done p.state

/-- A poll that is pending has been told to wait for capacity as the last thing. -/
def Parked (calls : List H2Call) (p : Polled Unit) : Prop :=
  p.result = .pending → ∃ used, calls = used ++ .pollCapacity .pending :: p.rest

theorem andThen_cases {polled : Option (Polled Unit)} {p : Polled Unit}
    {next : SendSide → List H2Call → Option (Polled Unit)} (h : andThen polled next = some p) :
    (∃ s rest, polled = some ⟨s, .ready (.ok ()), rest⟩ ∧ next s rest = some p) ∨
      polled = some p ∧ p.result ≠ .ready (.ok ()) := by
  unfold andThen at h
  split at h
  · rename_i s rest
    exact .inl ⟨s, rest, rfl, h⟩
  · rename_i hother
    refine .inr ⟨h, fun hready => ?_⟩
    obtain ⟨s, result, rest⟩ := p
    cases hready
    exact hother s rest h

section Frame

variable {s : SendSide} {frame : List UInt8} {calls : List H2Call} {p : Polled Unit}

/-- The ways out of the loop over the current frame. -/
inductive FrameCase (s : SendSide) (frame : List UInt8) : Polled Unit → Prop
  | sent (offset : Nat) (rest : List H2Call) :
      FrameCase s frame ⟨s.setOffset offset, .ready (.ok ()), rest⟩
  | waiting {offset : Nat} (hoffset : offset < frame.length) (rest : List H2Call) :
      FrameCase s frame ⟨s.setOffset offset, .pending, rest⟩
  | failed (e : IoError) (rest : List H2Call) : FrameCase s frame ⟨s, .ready (.error e), rest⟩

theorem sendLoop_frameCase {offset : Nat} (h : s.sendLoop frame calls offset = some p) :
    FrameCase s frame p ∧ Parked calls p := by
  fun_induction SendSide.sendLoop s frame calls offset with
  | case1 calls offset remaining hzero =>
      cases h
      exact ⟨.sent offset calls, by simp [Parked]⟩
  | case2 offset remaining _ calls capacity ih =>
      obtain ⟨hcase, hparked⟩ := ih h
      refine ⟨hcase, fun hpending => ?_⟩
      obtain ⟨used, rfl⟩ := hparked hpending
      exact ⟨_ :: _ :: _ :: used, rfl⟩
  | case3 | case4 =>
      cases h
      exact ⟨.failed _ _, by simp [Parked]⟩
  | case5 offset remaining hpos calls =>
      cases h
      exact ⟨.waiting (by omega) calls, fun _ => ⟨[_, _], rfl⟩⟩
  | case7 offset remaining _ n calls size ih =>
      obtain ⟨hcase, hparked⟩ := ih h
      refine ⟨hcase, fun hpending => ?_⟩
      obtain ⟨used, rfl⟩ := hparked hpending
      exact ⟨_ :: _ :: used, rfl⟩
  | case8 =>
      cases h
      exact ⟨.failed _ _, by simp [Parked]⟩
  | case6 | case9 | case10 => cases h

theorem openStream_state (h : s.openStream calls = some p) :
    (∃ r, p.state = { s with responder := r }) ∧ p.result ≠ .pending := by
  unfold SendSide.openStream at h
  split at h
  · cases h
    exact ⟨⟨s.responder, rfl⟩, by simp⟩
  · split at h
    · split at h
      · split at h <;> cases h
        · exact ⟨⟨.opened, rfl⟩, by simp⟩
        · exact ⟨⟨s.responder, rfl⟩, by simp⟩
      · cases h
    · cases h

theorem pollSendCurrentFrame_frameCase (hframe : s.currentFrame = some frame)
    (h : s.pollSendCurrentFrame calls = some p) :
    (∃ r, FrameCase { s with responder := r } frame p) ∧ Parked calls p := by
  simp only [SendSide.pollSendCurrentFrame, hframe] at h
  obtain ⟨s', rest, hopen, hloop⟩ | ⟨hopen, hresult⟩ := andThen_cases h
  · obtain ⟨⟨r, hstate⟩, -⟩ := openStream_state hopen
    obtain ⟨used, hcalls, -⟩ := (openStream_cases hopen).sends (by simp)
    simp only at hstate hcalls
    rw [hstate] at hloop
    obtain ⟨hcase, hparked⟩ := sendLoop_frameCase hloop
    refine ⟨⟨r, hcase⟩, fun hpending => ?_⟩
    obtain ⟨used', rfl⟩ := hparked hpending
    exact ⟨used ++ used', by rw [hcalls, List.append_assoc]⟩
  · obtain ⟨⟨r, hstate⟩, hready⟩ := openStream_state hopen
    refine ⟨⟨r, ?_⟩, fun hpending => absurd hpending hready⟩
    obtain ⟨state, result, rest⟩ := p
    cases hstate
    rcases result with (e | ⟨⟨⟩⟩) | _
    · exact .failed e rest
    · exact absurd rfl hresult
    · exact absurd rfl hready

end Frame

section Queue

variable {s : SendSide} {calls : List H2Call} {p : Polled Unit}

theorem QueueInv.bytes_of_current {frame : List UInt8} (h : QueueInv s)
    (hframe : s.currentFrame = some frame) :
    s.sendQueueBytes = (s.sendQueue.map List.length).sum + frame.length := by
  rw [h.bytes, hframe]
  rfl

theorem QueueInv.bytes_of_emptied (h : QueueInv s) (hempty : Emptied s) : s.sendQueueBytes = 0 := by
  rw [h.bytes, hempty.1, hempty.2]
  rfl

theorem finishFrame_keeps (hinv : QueueInv s) (h : s.finishFrame calls = some p) :
    Keeps s (Cleared s) p ∧ p.state.sendQueue = s.sendQueue ∧ Parked calls p := by
  unfold SendSide.finishFrame at h
  split at h
  · rename_i hnone
    cases h
    exact ⟨⟨hinv, Nat.le_refl _, rfl, fun _ => ⟨hnone, rfl⟩⟩, rfl, by simp [Parked]⟩
  rename_i frame hframe
  have hoffset := hinv.current frame hframe
  have hbytes := hinv.bytes_of_current hframe
  rw [if_pos (by omega)] at h
  obtain ⟨s', rest, hsend, hclear⟩ | ⟨hsend, hresult⟩ := andThen_cases h
  · obtain ⟨⟨r, hcase⟩, -⟩ := pollSendCurrentFrame_frameCase hframe hsend
    cases hcase with
    | sent offset rest =>
        cases hclear
        refine ⟨⟨⟨?_, hinv.frames, by simp [SendSide.clearFrame]⟩, Nat.sub_le .., rfl,
          fun _ => ⟨rfl, rfl⟩⟩, rfl, by simp [Parked]⟩
        change s.sendQueueBytes - frame.length = (s.sendQueue.map List.length).sum + 0
        omega
  · obtain ⟨⟨r, hcase⟩, hparked⟩ := pollSendCurrentFrame_frameCase hframe hsend
    cases hcase with
    | sent offset rest => exact absurd rfl hresult
    | waiting hwaiting rest =>
        refine ⟨⟨⟨hinv.bytes, hinv.frames, ?_⟩, Nat.le_refl _, rfl, by simp⟩, rfl, hparked⟩
        intro frame' hframe'
        rw [show frame' = frame from Option.some.inj (hframe'.symm.trans hframe)]
        exact hwaiting
    | failed e rest =>
        exact ⟨⟨⟨hinv.bytes, hinv.frames, hinv.current⟩, Nat.le_refl _, rfl, by simp⟩, rfl, hparked⟩

theorem queueInv_pop {frame : List UInt8} {queue : List (List UInt8)} (hinv : QueueInv s)
    (hnone : s.currentFrame = none) (hqueue : s.sendQueue = frame :: queue) :
    QueueInv
      { s with sendQueue := queue, currentFrame := some frame, currentFrameOffset := 0 } := by
  have hbytes := hinv.bytes
  have hframes := hinv.frames
  rw [hqueue] at hbytes hframes
  refine ⟨?_, fun f hf => hframes f (List.mem_cons_of_mem _ hf), ?_⟩
  · simp only [hnone, List.map_cons, List.sum_cons, Option.getD_none, List.length_nil] at hbytes
    simp only [Option.getD_some]
    omega
  · rintro f hf
    cases hf
    exact List.length_pos_iff.mpr (hframes frame List.mem_cons_self)

theorem sendQueued_keeps {queue : List (List UInt8)} (hqueue : s.sendQueue = queue)
    (hinv : QueueInv s) (h : SendSide.sendQueued queue s calls = some p) :
    Keeps s Emptied p ∧ Parked calls p := by
  induction queue generalizing s calls with
  | nil =>
      obtain ⟨hkeeps, hsame, hparked⟩ := finishFrame_keeps hinv h
      refine ⟨⟨hkeeps.inv, hkeeps.bytes, hkeeps.maxMessageSize, fun hready => ?_⟩, hparked⟩
      exact ⟨(hkeeps.done hready).1, hsame.trans hqueue⟩
  | cons frame queue ih =>
      obtain ⟨s', rest, hfinish, hnext⟩ | ⟨hfinish, hresult⟩ := andThen_cases h
      · obtain ⟨hkeeps, -, -⟩ := finishFrame_keeps hinv hfinish
        obtain ⟨used, hcalls, -⟩ := (finishFrame_cases hfinish).sends (by simp)
        obtain ⟨hnone, hsame⟩ := hkeeps.done rfl
        obtain ⟨hrest, hparked⟩ :=
          ih rfl (queueInv_pop hkeeps.inv hnone (hsame.trans hqueue)) hnext
        refine ⟨⟨hrest.inv, hrest.bytes.trans hkeeps.bytes,
          hrest.maxMessageSize.trans hkeeps.maxMessageSize, hrest.done⟩, fun hpending => ?_⟩
        obtain ⟨used', hused'⟩ := hparked hpending
        exact ⟨used ++ used', by rw [hcalls, hused', List.append_assoc]⟩
      · obtain ⟨hkeeps, -, hparked⟩ := finishFrame_keeps hinv hfinish
        exact ⟨⟨hkeeps.inv, hkeeps.bytes, hkeeps.maxMessageSize,
          fun hready => absurd hready hresult⟩, hparked⟩

theorem pollSendQueued_keeps (hinv : QueueInv s) (h : s.pollSendQueued calls = some p) :
    Keeps s Emptied p ∧ Parked calls p :=
  sendQueued_keeps rfl hinv h

end Queue

section Frames

theorem length_encodeGrpcMessage (payload : List UInt8) :
    (encodeGrpcMessage payload).length =
      6 + varintLen (UInt64.ofNat payload.length) + payload.length := by
  simp only [encodeGrpcMessage, List.length_cons, List.length_append, length_toBeBytes32,
    length_encodeVarint]
  omega

theorem varintLen_mono {v w : UInt64} (h : v.toNat ≤ w.toNat) : varintLen v ≤ varintLen w := by
  have hlog : v.toNat.log2 ≤ w.toNat.log2 := by
    rw [Nat.log2_eq_log_two, Nat.log2_eq_log_two]
    exact Nat.log_mono_right h
  unfold varintLen
  split
  · split
    · exact Nat.le_refl _
    · simp only
      omega
  · rename_i hv
    rw [if_neg]
    · simp only
      omega
    · rintro rfl
      exact hv (UInt64.toNat_inj.mp (Nat.le_zero.mp h))

/-- The length of the frame of a message of `n` bytes. -/
def frameLen (n : Nat) : Nat := (encodeGrpcMessage (List.replicate n 0)).length

theorem length_encodeGrpcMessage_le {payload : List UInt8} {n : Nat} (hword : n < 2 ^ 64)
    (h : payload.length ≤ n) : (encodeGrpcMessage payload).length ≤ frameLen n := by
  have hmono : varintLen (UInt64.ofNat payload.length) ≤ varintLen (UInt64.ofNat n) := by
    apply varintLen_mono
    rw [UInt64.toNat_ofNat', UInt64.toNat_ofNat', Nat.mod_eq_of_lt hword,
      Nat.mod_eq_of_lt (by omega)]
    exact h
  rw [frameLen, length_encodeGrpcMessage, length_encodeGrpcMessage, List.length_replicate]
  omega

end Frames

section Run

variable {s s' : SendSide}

/-- The exact count and its bound; the message size is a machine word. -/
structure AccountInv (s : SendSide) : Prop where
  queue : QueueInv s
  bound : s.sendQueueBytes < maxSendQueueBytes + frameLen s.maxMessageSize
  word : s.maxMessageSize < 2 ^ 64

theorem AccountInv.keeps {Done : SendSide → Prop} {p : Polled Unit} (h : AccountInv s)
    (hkeeps : Keeps s Done p) : AccountInv p.state := by
  refine ⟨hkeeps.inv, ?_, ?_⟩
  · rw [hkeeps.maxMessageSize]
    exact Nat.lt_of_le_of_lt hkeeps.bytes h.bound
  · rw [hkeeps.maxMessageSize]
    exact h.word

theorem AccountInv.close (h : AccountInv s) : AccountInv { s with writeClosed := true } :=
  ⟨⟨h.queue.bytes, h.queue.frames, h.queue.current⟩, h.bound, h.word⟩

theorem AccountInv.push (h : AccountInv s) (hroom : s.sendQueueBytes < maxSendQueueBytes)
    (payload : List UInt8) (hsize : payload.length ≤ s.maxMessageSize) :
    AccountInv (s.push (encodeGrpcMessage payload)) := by
  have hbytes := h.queue.bytes
  have hlen := length_encodeGrpcMessage_le h.word hsize
  refine ⟨⟨?_, ?_, h.queue.current⟩, ?_, h.word⟩
  · simp only [SendSide.push, List.map_append, List.map_cons, List.map_nil, List.sum_append,
      List.sum_cons, List.sum_nil]
    omega
  · intro frame hframe
    rcases List.mem_append.mp hframe with hold | hnew
    · exact h.queue.frames frame hold
    · obtain rfl := List.mem_singleton.mp hnew
      simp [encodeGrpcMessage]
  · change s.sendQueueBytes + (encodeGrpcMessage payload).length < _ + frameLen s.maxMessageSize
    omega

theorem accountInv_pollWrite {buf : List UInt8} {calls : List H2Call} {p : Polled Nat}
    (h : AccountInv s) (hwrite : s.pollWrite buf calls = some p) : AccountInv p.state := by
  unfold SendSide.pollWrite at hwrite
  split at hwrite
  · cases hwrite
    exact h
  split at hwrite
  · cases hwrite
  · rename_i hfirst
    cases hwrite
    exact h.keeps (pollSendQueued_keeps h.queue hfirst).1
  · rename_i s₁ first rest hok hfirst
    have hnext : AccountInv s₁ := h.keeps (pollSendQueued_keeps h.queue hfirst).1
    split at hwrite
    · cases hwrite
      exact hnext
    rename_i hroom
    simp only at hwrite
    have hpush := hnext.push (Nat.lt_of_not_le hroom)
      (buf.take (min buf.length s₁.maxMessageSize)) (by simp)
    split at hwrite
    · cases hwrite
    · rename_i hsecond
      cases hwrite
      exact hpush.keeps (pollSendQueued_keeps hpush.queue hsecond).1
    · rename_i hsecond
      cases hwrite
      exact hpush.keeps (pollSendQueued_keeps hpush.queue hsecond).1

/-- A write that has to wait has found the queue blocked. -/
theorem pollSendQueued_of_pending {buf : List UInt8} {calls rest : List H2Call} (h : QueueInv s)
    (hwrite : s.pollWrite buf calls = some ⟨s', .pending, rest⟩) :
    s.pollSendQueued calls = some ⟨s', .pending, rest⟩ := by
  unfold SendSide.pollWrite at hwrite
  split at hwrite
  · cases hwrite
  split at hwrite
  · cases hwrite
  · cases hwrite
  · rename_i s₁ first rest₁ hok hfirst
    have hkeeps := (pollSendQueued_keeps h hfirst).1
    split at hwrite
    · rename_i hfull
      cases hwrite
      rcases first with (e | ⟨⟨⟩⟩) | _
      · exact absurd rfl (hok e)
      · have hzero := hkeeps.inv.bytes_of_emptied (hkeeps.done rfl)
        rw [hzero] at hfull
        exact absurd hfull (by decide)
      · exact hfirst
    · simp only at hwrite
      split at hwrite <;> cases hwrite

theorem accountInv_pollShutdown {calls : List H2Call} {p : Polled Unit} (h : AccountInv s)
    (hshutdown : s.pollShutdown calls = some p) : AccountInv p.state := by
  unfold SendSide.pollShutdown at hshutdown
  split at hshutdown
  · cases hshutdown
    exact h
  obtain ⟨s₁, rest, hflush, hfinish⟩ | ⟨hflush, -⟩ := andThen_cases hshutdown
  · rw [(finish_cases hfinish).1]
    exact h.close.keeps (pollSendQueued_keeps h.close.queue hflush).1
  · exact h.close.keeps (pollSendQueued_keeps h.close.queue hflush).1

theorem accountInv_step {input : SendOp × List H2Call} {answer : Answer} (h : AccountInv s)
    (hstep : s.step input = some (s', answer)) : AccountInv s' := by
  cases stepPoll hstep with
  | write hwrite => exact accountInv_pollWrite h hwrite
  | flush hflush => exact h.keeps (pollSendQueued_keeps h.queue hflush).1
  | shutdown hshutdown => exact accountInv_pollShutdown h hshutdown

theorem accountInv_start {maxMessageSize : Nat} (h : maxMessageSize < 2 ^ 64) :
    AccountInv (.start maxMessageSize) where
  queue := ⟨rfl, by simp [SendSide.start], by simp [SendSide.start]⟩
  bound := Nat.lt_of_lt_of_le (by decide : 0 < maxSendQueueBytes) (Nat.le_add_right ..)
  word := by
    simp only [SendSide.start]
    split
    · decide
    · exact h

/-- In every state reached, whatever the stream answered: the count is that of the bytes
in the queue and of the whole current frame and stays below the limit and one frame of
the largest message, and a write is pending only if the queue waits for capacity. -/
theorem send_queue_accounting {maxMessageSize : Nat} {inputs : List (SendOp × List H2Call)}
    {trace : Trace} (hword : maxMessageSize < 2 ^ 64)
    (hrun : run SendSide.step (.start maxMessageSize) inputs = some (s, trace)) :
    s.sendQueueBytes = (s.sendQueue.map List.length).sum + (s.currentFrame.getD []).length ∧
    s.sendQueueBytes < maxSendQueueBytes + frameLen s.maxMessageSize ∧
    ∀ buf calls s' rest, s.pollWrite buf calls = some ⟨s', .pending, rest⟩ →
      s.pollSendQueued calls = some ⟨s', .pending, rest⟩ ∧
      ∃ used, calls = used ++ .pollCapacity .pending :: rest := by
  have hinv : AccountInv s := by
    refine run_induction (P := fun _ s => AccountInv s) hrun (accountInv_start hword) ?_
    intro _ _ _ _ _ h hstep
    exact accountInv_step h hstep
  refine ⟨hinv.queue.bytes, hinv.bound, ?_⟩
  intro buf calls s' rest hwrite
  have hpending := pollSendQueued_of_pending hinv.queue hwrite
  exact ⟨hpending, (pollSendQueued_keeps hinv.queue hpending).2 rfl⟩

/-- The stream fails in the middle of a frame, which stays counted as a whole. -/
theorem send_queue_after_failure :
    ∃ s trace, run SendSide.step (.start 0)
        [(.write [7], [.sendResponse responseHeaders false (.ok ()), .capacity 3,
          .sendData [0, 0, 0] (.ok ()), .capacity 0, .reserveCapacity 5,
          .pollCapacity (.ready none)])] = some (s, trace) ∧
      s.sendQueueBytes = 8 ∧ s.currentFrameOffset = 0 ∧
      s.sendQueueBytes = (s.sendQueue.map List.length).sum + (s.currentFrame.getD []).length := by
  obtain ⟨s, trace, hrun, hbytes, hoffset⟩ : ∃ s trace, run SendSide.step (.start 0)
      [(.write [7], [.sendResponse responseHeaders false (.ok ()), .capacity 3,
        .sendData [0, 0, 0] (.ok ()), .capacity 0, .reserveCapacity 5,
        .pollCapacity (.ready none)])] = some (s, trace) ∧
      s.sendQueueBytes = 8 ∧ s.currentFrameOffset = 0 := ⟨_, _, rfl, rfl, rfl⟩
  exact ⟨s, trace, hrun, hbytes, hoffset, (send_queue_accounting (by decide) hrun).1⟩

end Run

end TrojanServer.GrpcSend
