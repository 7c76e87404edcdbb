import TrojanServer.GrpcFrames
import TrojanServer.GrpcSendSpec

namespace TrojanServer.GrpcSend

open TrojanServer.AsyncIo
open TrojanServer.FrameDecoding
open TrojanServer.GrpcCodec
open TrojanServer.StepMachine

def callsOf (trace : Trace) : List H2Call := trace.flatMap fun entry => entry.1.2

/-- What the transport has put on the stream. -/
def log (trace : Trace) : List Op := ops (callsOf trace)

def acceptedBy : (SendOp × List H2Call) × Answer → List (List UInt8)
  | ((.write buf, _), .wrote (.ready (.ok n))) => [buf.take n]
  | _ => []

/-- The slices of the writes that succeeded. -/
def accepted (trace : Trace) : List (List UInt8) := trace.flatMap acceptedBy

def NoFailure (input : SendOp × List H2Call) : Prop := input.2.any H2Call.isFailure = false

theorem NoFailure.not_failed {op : SendOp} {calls : List H2Call} (h : NoFailure (op, calls)) :
    ¬ calls.any H2Call.isFailure = true :=
  Bool.eq_false_iff.mp h

@[simp] theorem log_snoc (before : Trace) (input : SendOp × List H2Call) (answer : Answer) :
    log (before ++ [(input, answer)]) = log before ++ ops input.2 := by
  simp [log, callsOf]

@[simp] theorem accepted_snoc (before : Trace) (entry : (SendOp × List H2Call) × Answer) :
    accepted (before ++ [entry]) = accepted before ++ acceptedBy entry := by
  simp [accepted]

theorem sent_ops_mono {made calls : List H2Call} (h : made <+: calls) :
    sent (ops made) <+: sent (ops calls) := by
  obtain ⟨rest, rfl⟩ := h
  rw [ops_append, sent_append]
  exact List.prefix_append _ _

theorem sent_closes {r : Responder} {call : H2Call} (h : Closes r call) :
    sent (ops [call]) = [] := by
  rcases h with ⟨-, h⟩ | ⟨-, h⟩ <;> simp [ops, h, sent, Op.bytes]

def Delivered (trace : Trace) (s : SendSide) : Prop :=
  sent (log trace) ++ s.unsent = (accepted trace).flatMap encodeGrpcMessage

variable {before trace : Trace} {s s' : SendSide} {input : SendOp × List H2Call} {answer : Answer}

theorem Delivered.sends {op : SendOp} {used : List H2Call} (h : Delivered before s)
    (hsends : Sends s used s') (haccepted : acceptedBy ((op, used), answer) = []) :
    Delivered (before ++ [((op, used), answer)]) s' := by
  rw [Delivered, log_snoc, accepted_snoc, haccepted, sent_append, List.append_assoc,
    hsends.conserved, List.append_nil]
  exact h

theorem delivered_step (h : Delivered before s) (hok : NoFailure input)
    (hstep : s.step input = some (s', answer)) :
    Delivered (before ++ [(input, answer)]) s' ∧
      (answer = .done (.ready (.ok ())) → s'.unsent = []) := by
  cases step_cases hstep with
  | failed hfailure => exact absurd hfailure hok.not_failed
  | refused _ => exact ⟨h.sends (.refl s) rfl, by simp⟩
  | full _ hsends => exact ⟨h.sends hsends rfl, by simp⟩
  | @accepted buf n used used' s₁ _ _ _ hsends hsends' =>
      refine ⟨?_, by simp⟩
      rw [Delivered, log_snoc, accepted_snoc, ops_append, sent_append, sent_append,
        List.append_assoc, List.append_assoc, hsends'.conserved, unsent_push,
        ← List.append_assoc (sent (ops used)), hsends.conserved, ← List.append_assoc, h]
      simp [acceptedBy]
  | flushed hsends _ hempty => exact ⟨h.sends hsends rfl, fun _ => unsent_of_emptied hempty⟩
  | blocked hsends _ => exact ⟨h.sends hsends rfl, by simp⟩
  | already _ hempty => exact ⟨h.sends (.refl s) rfl, fun _ => unsent_of_emptied hempty⟩
  | @finished used call _ _ hsends hempty hcloses =>
      refine ⟨?_, fun _ => unsent_of_emptied hempty⟩
      have hclosed : Delivered before s.closed := h
      have hsent : Delivered (before ++ [((.shutdown, used), .done (.ready (.ok ())))]) s' :=
        hclosed.sends hsends rfl
      rw [Delivered, log_snoc] at hsent ⊢
      simpa [sent_closes hcloses, acceptedBy] using hsent
  | closing hsends _ =>
      have hclosed : Delivered before s.closed := h
      exact ⟨hclosed.sends hsends rfl, by simp⟩

theorem delivered_start (m : Nat) : Delivered [] (.start m) := rfl

section MessageSize

def Bounded (m : Nat) (trace : Trace) (s : SendSide) : Prop :=
  s.maxMessageSize = m ∧ ∀ payload ∈ accepted trace, payload.length ≤ m

theorem Bounded.same {m : Nat} {entry : (SendOp × List H2Call) × Answer} (h : Bounded m before s)
    (hsize : s'.maxMessageSize = s.maxMessageSize) (haccepted : acceptedBy entry = []) :
    Bounded m (before ++ [entry]) s' := by
  refine ⟨hsize.trans h.1, ?_⟩
  rw [accepted_snoc, haccepted, List.append_nil]
  exact h.2

theorem bounded_step {m : Nat} (h : Bounded m before s) (hok : NoFailure input)
    (hstep : s.step input = some (s', answer)) : Bounded m (before ++ [(input, answer)]) s' := by
  cases step_cases hstep with
  | failed hfailure => exact absurd hfailure hok.not_failed
  | refused _ => exact h.same rfl rfl
  | full _ hsends => exact h.same hsends.maxMessageSize rfl
  | @accepted buf n _ _ s₁ _ _ hn hsends hsends' =>
      refine ⟨(hsends'.maxMessageSize.trans hsends.maxMessageSize).trans h.1, ?_⟩
      intro payload hmem
      rw [accepted_snoc, List.mem_append] at hmem
      rcases hmem with hold | hnew
      · exact h.2 payload hold
      · obtain rfl : payload = buf.take n := by simpa [acceptedBy] using hnew
        have hsize := h.1
        rw [List.length_take]
        omega
  | flushed hsends _ _ => exact h.same hsends.maxMessageSize rfl
  | blocked hsends _ => exact h.same hsends.maxMessageSize rfl
  | already _ _ => exact h.same rfl rfl
  | finished _ hsends _ _ => exact h.same hsends.maxMessageSize rfl
  | closing hsends _ => exact h.same hsends.maxMessageSize rfl

end MessageSize

/-- At every moment, also within a poll, the stream was given a prefix of the frames
of the accepted writes.  A flush that is ready has sent all of them, and the parser
takes them apart into the accepted slices. -/
theorem send_path_delivers {m : Nat} (hmin : 1 ≤ m) (hmax : m ≤ 4 * 1024 * 1024)
    {inputs : List (SendOp × List H2Call)}
    (hrun : run SendSide.step (.start m) inputs = some (s, trace))
    (hok : ∀ input ∈ inputs, NoFailure input) :
    (∀ made, made <+: callsOf trace →
      sent (ops made) <+: (accepted trace).flatMap encodeGrpcMessage) ∧
    ∀ before calls after,
      trace = before ++ ((.flush, calls), .done (.ready (.ok ()))) :: after →
      let upTo := before ++ [((.flush, calls), .done (.ready (.ok ())))]
      sent (log upTo) = (accepted upTo).flatMap encodeGrpcMessage ∧
        drain decodeFrame (sent (log upTo)) = ⟨accepted upTo, [], none⟩ := by
  have halong : Along SendSide.step (fun _ input => NoFailure input) (.start m) inputs :=
    along_of_mem (fun input hmem _ => hok input hmem) _
  have hstart : (SendSide.start m).maxMessageSize = m := if_neg (by omega)
  obtain ⟨⟨hdelivered, -⟩, hflushes⟩ := run_induction_events
    (P := fun trace s => Delivered trace s ∧ Bounded m trace s)
    (Q := fun before input answer => answer = .done (.ready (.ok ())) →
      let upTo := before ++ [(input, answer)]
      sent (log upTo) = (accepted upTo).flatMap encodeGrpcMessage ∧
        ∀ payload ∈ accepted upTo, payload.length ≤ m)
    hrun halong ⟨delivered_start m, hstart, by simp [accepted]⟩ (by
      rintro trace s input s' answer ⟨hdelivered, hbounded⟩ hinput hstep
      obtain ⟨hnext, hempty⟩ := delivered_step hdelivered hinput hstep
      have hbound := bounded_step hbounded hinput hstep
      refine ⟨⟨hnext, hbound⟩, fun hanswer => ⟨?_, hbound.2⟩⟩
      rw [Delivered, hempty hanswer, List.append_nil] at hnext
      exact hnext)
  constructor
  · intro made hmade
    refine (sent_ops_mono hmade).trans ?_
    rw [← hdelivered]
    exact List.prefix_append _ _
  · intro before calls after hsplit
    obtain ⟨hsent, hbound⟩ := hflushes before _ _ after hsplit rfl
    refine ⟨hsent, ?_⟩
    rw [hsent]
    apply drain_encodeGrpcMessage
    intro payload hmem
    have hle := hbound payload hmem
    omega

/-- A frame cut after three bytes and completed by a flush. -/
theorem send_path_delivers_cut_frame :
    let write : List H2Call :=
      [.sendResponse responseHeaders false (.ok ()), .capacity 3, .sendData [0, 0, 0] (.ok ()),
        .capacity 0, .reserveCapacity 6, .pollCapacity .pending]
    let flush : List H2Call := [.capacity 10, .sendData [0, 4, 0x0A, 2, 7, 8] (.ok ())]
    let trace : Trace := [((.write [7, 8], write), .wrote (.ready (.ok 2))),
      ((.flush, flush), .done (.ready (.ok ())))]
    drain decodeFrame (sent (log trace)) = ⟨[[7, 8]], [], none⟩ := by
  intro write flush trace
  obtain ⟨s, hrun⟩ : ∃ s, run SendSide.step (.start 32768) (trace.map Prod.fst) =
      some (s, trace) := ⟨_, rfl⟩
  have hok : ∀ input ∈ trace.map Prod.fst, NoFailure input := by
    simp [trace, NoFailure, write, flush, H2Call.isFailure]
  exact ((send_path_delivers (by decide) (by decide) hrun hok).2 (trace.take 1) flush [] rfl).2

end TrojanServer.GrpcSend
