import TrojanServer.GrpcDelivery

namespace TrojanServer.GrpcSend

open TrojanServer.AsyncIo
open TrojanServer.GrpcCodec
open TrojanServer.StepMachine

/-- A response as far as it has come. -/
def WellFormed (log : List Op) : Prop :=
  (∃ chunks : List (List UInt8), log <+: .headers false :: (chunks.map .data ++ [.trailers])) ∨
    log <+: [.headers true]

def Finished (log : List Op) : Prop :=
  (∃ chunks : List (List UInt8), log = .headers false :: (chunks.map .data ++ [.trailers])) ∨
    log = [.headers true]

/-- If a closed transport with bytes unsent is flushed, the stream has no capacity to give
before all of them are sent. -/
def FlushBlocked (s : SendSide) (input : SendOp × List H2Call) : Prop :=
  input.1 = .flush → s.writeClosed = true → s.unsent ≠ [] → Starved input.2

theorem emits_opened {log : List Op} {r r' : Responder} (h : Emits r log r') (hr : r = .opened) :
    r' = .opened ∧ ∃ chunks : List (List UInt8), log = chunks.map .data := by
  induction h with
  | nil r => exact ⟨hr, [], rfl⟩
  | headers _ _ => cases hr
  | data chunk _ ih =>
      obtain ⟨hr', chunks, rfl⟩ := ih rfl
      exact ⟨hr', chunk :: chunks, rfl⟩

theorem emits_pending {log : List Op} {r : Responder} (h : Emits .pending log r) :
    log = [] ∧ r = .pending ∨
      r = .opened ∧ ∃ chunks : List (List UInt8), log = .headers false :: chunks.map .data := by
  cases h with
  | nil => exact .inl ⟨rfl, rfl⟩
  | headers hrest =>
      obtain ⟨hr, chunks, rfl⟩ := emits_opened hrest rfl
      exact .inr ⟨hr, chunks, rfl⟩

theorem wellFormed_of_finished {log : List Op} (h : Finished log) : WellFormed log := by
  rcases h with ⟨chunks, rfl⟩ | rfl
  · exact .inl ⟨chunks, List.prefix_refl _⟩
  · exact .inr (List.prefix_refl _)

theorem wellFormed_of_emits {log : List Op} {r : Responder} (h : Emits .pending log r) :
    WellFormed log := by
  rcases emits_pending h with ⟨rfl, -⟩ | ⟨-, chunks, rfl⟩
  · exact .inr List.nil_prefix
  · refine .inl ⟨chunks, ?_⟩
    rw [← List.cons_append]
    exact List.prefix_append _ _

theorem not_finished_of_emits {log : List Op} {r : Responder} (h : Emits .pending log r) :
    ¬ Finished log := by
  intro hlog
  rcases emits_pending h with ⟨rfl, -⟩ | ⟨-, chunks, rfl⟩
  · rcases hlog with ⟨_, h⟩ | h <;> cases h
  · rcases hlog with ⟨chunks', h⟩ | h
    · have hmem : Op.trailers ∈ chunks.map Op.data := by
        rw [List.cons.injEq] at h
        rw [h.2]
        simp
      simp at hmem
    · cases h

theorem finished_of_closes {log : List Op} {r : Responder} {call : H2Call}
    (h : Emits .pending log r) (hcloses : Closes r call) : Finished (log ++ ops [call]) := by
  rcases hcloses with ⟨rfl, hop⟩ | ⟨rfl, hop⟩
  · rcases emits_pending h with ⟨-, hr⟩ | ⟨-, chunks, rfl⟩
    · cases hr
    · exact .inl ⟨chunks, by simp [ops, hop]⟩
  · rcases emits_pending h with ⟨rfl, -⟩ | ⟨hr, -⟩
    · exact .inr (by simp [ops, hop])
    · cases hr

section Steps

variable {before trace : Trace} {s s' : SendSide} {input : SendOp × List H2Call} {answer : Answer}

/-- A transport with nothing to send makes no call. -/
theorem pollSendQueued_of_emptied (h : Emptied s) (calls : List H2Call) :
    s.pollSendQueued calls = some ⟨s, .ready (.ok ()), calls⟩ := by
  simp [SendSide.pollSendQueued, h.2, SendSide.sendQueued, SendSide.finishFrame, h.1]

theorem step_of_emptied (hempty : Emptied s) (hclosed : s.writeClosed = true)
    (hstep : s.step input = some (s', answer)) : input.2 = [] ∧ s' = s := by
  cases stepPoll hstep with
  | write hwrite =>
      simp only [SendSide.pollWrite, hclosed, if_true] at hwrite
      cases hwrite
      exact ⟨rfl, rfl⟩
  | flush hflush =>
      simp only [SendSide.pollFlush, pollSendQueued_of_emptied hempty] at hflush
      cases hflush
      exact ⟨rfl, rfl⟩
  | shutdown hshutdown =>
      simp only [SendSide.pollShutdown, hclosed, hempty.1, hempty.2, Bool.true_and,
        List.isEmpty_nil, Option.isNone_none, if_true] at hshutdown
      cases hshutdown
      exact ⟨rfl, rfl⟩

/-- The response is under way, or it is finished and nothing can be added to it. -/
inductive Phase (log : List Op) (s : SendSide) : Prop
  | underWay (hemits : Emits .pending log s.responder)
  | finished (hlog : Finished log) (hclosed : s.writeClosed = true) (hempty : Emptied s)

theorem Phase.wellFormed {log : List Op} (h : Phase log s) : WellFormed log := by
  cases h with
  | underWay hemits => exact wellFormed_of_emits hemits
  | finished hlog _ _ => exact wellFormed_of_finished hlog

theorem phase_step (h : Phase (log before) s) (hok : NoFailure input)
    (hstep : s.step input = some (s', answer)) : Phase (log (before ++ [(input, answer)])) s' := by
  rw [log_snoc]
  cases h with
  | finished hlog hclosed hempty =>
      obtain ⟨hcalls, rfl⟩ := step_of_emptied hempty hclosed hstep
      rw [hcalls]
      exact .finished (by simpa [ops] using hlog) hclosed hempty
  | underWay hemits =>
      cases step_cases hstep with
      | failed hfailure => exact absurd hfailure hok.not_failed
      | refused _ => exact .underWay (by simpa [ops] using hemits)
      | full _ hsends => exact .underWay (hemits.trans hsends.emits)
      | accepted _ _ hsends hsends' =>
          rw [ops_append]
          exact .underWay (hemits.trans (hsends.emits.trans hsends'.emits))
      | flushed hsends _ _ => exact .underWay (hemits.trans hsends.emits)
      | blocked hsends _ => exact .underWay (hemits.trans hsends.emits)
      | already _ _ => exact .underWay (by simpa [ops] using hemits)
      | finished _ hsends hempty hcloses =>
          rw [ops_append, ← List.append_assoc]
          exact .finished (finished_of_closes (hemits.trans hsends.emits) hcloses)
            hsends.writeClosed hempty
      | closing hsends _ => exact .underWay (hemits.trans hsends.emits)

/-- A closed transport that has not finished still has bytes to send. -/
def Owes (log : List Op) (s : SendSide) : Prop :=
  s.writeClosed = true → Finished log ∨ s.unsent ≠ []

theorem owes_step (hphase : Phase (log before) s) (howes : Owes (log before) s)
    (hok : NoFailure input) (hflush : FlushBlocked s input)
    (hstep : s.step input = some (s', answer)) :
    Owes (log (before ++ [(input, answer)])) s' ∧
      (input.1 = .shutdown → answer = .done (.ready (.ok ())) →
        Finished (log (before ++ [(input, answer)]))) := by
  rw [log_snoc]
  by_cases hfinished : Finished (log before) ∧ s.writeClosed = true ∧ Emptied s
  · obtain ⟨hlog, hclosed, hempty⟩ := hfinished
    obtain ⟨hcalls, rfl⟩ := step_of_emptied hempty hclosed hstep
    rw [hcalls]
    have hsame : Finished (log before ++ ops []) := by simpa [ops] using hlog
    exact ⟨fun _ => .inl hsame, fun _ _ => hsame⟩
  have hemits : Emits .pending (log before) s.responder := by
    cases hphase with
    | underWay hemits => exact hemits
    | finished hlog hclosed hempty => exact absurd ⟨hlog, hclosed, hempty⟩ hfinished
  have hnot := not_finished_of_emits hemits
  cases step_cases hstep with
  | failed hfailure => exact absurd hfailure hok.not_failed
  | refused hclosed => exact ⟨fun _ => .inr ((howes hclosed).resolve_left hnot), by simp⟩
  | full hopen hsends =>
      refine ⟨fun hclosed => ?_, by simp⟩
      rw [hsends.writeClosed, hopen] at hclosed
      cases hclosed
  | accepted hopen _ hsends hsends' =>
      refine ⟨fun hclosed => ?_, by simp⟩
      have hstill := hsends'.writeClosed.trans (hsends.writeClosed.trans hopen)
      rw [hstill] at hclosed
      cases hclosed
  | flushed hsends hserved _ =>
      refine ⟨fun hclosed => ?_, by simp⟩
      rw [hsends.writeClosed] at hclosed
      exact absurd (hflush rfl hclosed ((howes hclosed).resolve_left hnot)) hserved
  | blocked _ hunsent => exact ⟨fun _ => .inr hunsent, by simp⟩
  | already hclosed hempty =>
      exact absurd (unsent_of_emptied hempty) ((howes hclosed).resolve_left hnot)
  | finished _ hsends _ hcloses =>
      have hlog := finished_of_closes (hemits.trans hsends.emits) hcloses
      rw [List.append_assoc, ← ops_append] at hlog
      exact ⟨fun _ => .inl hlog, fun _ _ => hlog⟩
  | closing _ hunsent => exact ⟨fun _ => .inr hunsent, by simp⟩

/-- The order of the response does not depend on the order of the polls. -/
theorem wellFormed_run {m : Nat} {inputs : List (SendOp × List H2Call)}
    (hrun : run SendSide.step (.start m) inputs = some (s, trace))
    (hok : ∀ input ∈ inputs, NoFailure input) : WellFormed (log trace) := by
  apply Phase.wellFormed
  refine run_induction_along (P := fun trace s => Phase (log trace) s) hrun
    (along_of_mem (fun input hmem _ => hok input hmem) _) (.underWay (.nil _)) ?_
  intro before s input s' answer hphase hinput hstep
  exact phase_step hphase hinput hstep

/-- In every run in which no flush empties the queue of a closed transport, a
shutdown that is ready has finished the response, with every accepted byte in it. -/
theorem shutdown_finishes_response {m : Nat} {inputs : List (SendOp × List H2Call)}
    (hrun : run SendSide.step (.start m) inputs = some (s, trace))
    (halong : Along SendSide.step (fun s input => NoFailure input ∧ FlushBlocked s input)
      (.start m) inputs) :
    WellFormed (log trace) ∧
    ∀ before calls after,
      trace = before ++ ((.shutdown, calls), .done (.ready (.ok ()))) :: after →
      let upTo := before ++ [((.shutdown, calls), .done (.ready (.ok ())))]
      Finished (log upTo) ∧ sent (log upTo) = (accepted upTo).flatMap encodeGrpcMessage := by
  obtain ⟨⟨hphase, -, -⟩, hshutdowns⟩ := run_induction_events
    (P := fun trace s => Phase (log trace) s ∧ Owes (log trace) s ∧ Delivered trace s)
    (Q := fun before input answer => input.1 = .shutdown → answer = .done (.ready (.ok ())) →
      let upTo := before ++ [(input, answer)]
      Finished (log upTo) ∧ sent (log upTo) = (accepted upTo).flatMap encodeGrpcMessage)
    hrun halong ⟨.underWay (.nil _), by simp [Owes, SendSide.start], delivered_start m⟩ (by
      rintro trace s input s' answer ⟨hphase, howes, hdelivered⟩ ⟨hinput, hflush⟩ hstep
      obtain ⟨hdelivered', hempty⟩ := delivered_step hdelivered hinput hstep
      obtain ⟨howes', hfinished⟩ := owes_step hphase howes hinput hflush hstep
      refine ⟨⟨phase_step hphase hinput hstep, howes', hdelivered'⟩, fun hop hanswer => ?_⟩
      refine ⟨hfinished hop hanswer, ?_⟩
      rw [Delivered, hempty hanswer, List.append_nil] at hdelivered'
      exact hdelivered')
  exact ⟨hphase.wellFormed, fun before calls after hsplit =>
    hshutdowns before _ _ after hsplit rfl rfl⟩

end Steps

/-- A write for which there is no capacity yet. -/
def stalledWrite : SendOp × List H2Call :=
  (.write [7, 8], [.sendResponse responseHeaders false (.ok ()), .capacity 0, .reserveCapacity 9,
    .pollCapacity .pending])

def stalled : List H2Call := [.capacity 0, .reserveCapacity 9, .pollCapacity .pending]

def wholeFrame : List H2Call := [.capacity 9, .sendData [0, 0, 0, 0, 4, 0x0A, 2, 7, 8] (.ok ())]

/-- A shutdown that is stalled, and finds capacity when it is polled again. -/
theorem shutdown_finishes_response_stalled :
    ∃ s trace, run SendSide.step (.start 32768) [stalledWrite, (.shutdown, stalled),
        (.flush, stalled), (.shutdown, wholeFrame ++ [.sendTrailers grpcStatus (.ok ())])] =
          some (s, trace) ∧
      Finished (log trace) ∧ sent (log trace) = (accepted trace).flatMap encodeGrpcMessage := by
  have htrace : (run SendSide.step (.start 32768) [stalledWrite, (.shutdown, stalled),
      (.flush, stalled), (.shutdown, wholeFrame ++ [.sendTrailers grpcStatus (.ok ())])]).map
        Prod.snd = some ([(stalledWrite, .wrote (.ready (.ok 2))),
          ((.shutdown, stalled), .done .pending), ((.flush, stalled), .done .pending)] ++
          [((.shutdown, wholeFrame ++ [.sendTrailers grpcStatus (.ok ())]),
            .done (.ready (.ok ())))]) := by decide +kernel
  obtain ⟨⟨s, _⟩, hrun, rfl⟩ := Option.map_eq_some_iff.mp htrace
  have halong : Along SendSide.step (fun s input => NoFailure input ∧ FlushBlocked s input)
      (.start 32768) [stalledWrite, (.shutdown, stalled), (.flush, stalled),
        (.shutdown, wholeFrame ++ [.sendTrailers grpcStatus (.ok ())])] := by
    refine along_cons rfl ⟨rfl, nofun⟩ (along_cons rfl ⟨rfl, nofun⟩ (along_cons rfl ⟨rfl, ?_⟩
      (along_cons rfl ⟨rfl, nofun⟩ trivial)))
    intro _ _ _
    simp [Starved, stalled]
  exact ⟨s, _, hrun, (shutdown_finishes_response hrun halong).2 _ _ [] rfl⟩

/-- A flush between two polls of a shutdown sends the last frame, and the second poll of
the shutdown returns without having sent the trailers. -/
theorem shutdown_skips_trailers :
    ∃ s trace, run SendSide.step (.start 32768) [stalledWrite, (.shutdown, stalled),
        (.flush, wholeFrame), (.shutdown, [])] = some (s, trace) ∧
      (∀ input ∈ trace.map Prod.fst, NoFailure input) ∧
      trace.getLast? = some ((.shutdown, []), .done (.ready (.ok ()))) ∧
      log trace = [.headers false, .data [0, 0, 0, 0, 4, 0x0A, 2, 7, 8]] ∧
      ¬ Finished (log trace) := by
  refine ⟨_, [(stalledWrite, .wrote (.ready (.ok 2))), ((.shutdown, stalled), .done .pending),
    ((.flush, wholeFrame), .done (.ready (.ok ()))),
    ((.shutdown, []), .done (.ready (.ok ())))], rfl, ?_, rfl, rfl, ?_⟩
  · simp [NoFailure, stalledWrite, stalled, wholeFrame, H2Call.isFailure]
  · exact not_finished_of_emits (.headers (.data _ (.nil _)))

end TrojanServer.GrpcSend
