import TrojanServer.RelaySpec

namespace TrojanServer.RelayIntegrity

open TrojanServer.AsyncIo
open TrojanServer.FifoTransfer
open TrojanServer.PollCopy
open TrojanServer.PollCopy.DirectionalBuffer
open TrojanServer.Relay

/-- The buffer of a direction holds exactly the bytes that were read and not
yet written, and `amt` counts the written ones. -/
structure StreamIntact (d : DirectionalBuffer) (calls : List IoCall) : Prop where
  pos_le_cap : d.pos ≤ d.cap
  cap_le_length : d.cap ≤ d.buf.length
  bytes : acceptedBytes calls ++ d.unwritten = returnedBytes calls
  amt : d.amt = (acceptedBytes calls).length

structure FullyDelivered (calls : List IoCall) : Prop where
  eof : calls.any IoCall.isEof = true
  delivered : acceptedBytes calls = returnedBytes calls
  clean : calls.any IoCall.isError = false

structure DirectionInv (bufferSize : Nat) (d : DirectionalBuffer) (calls : List IoCall) :
    Prop where
  wellFormed : d.WellFormed
  length : d.buf.length = bufferSize
  transfer : Transfer [] (returnedBytes calls) (acceptedBytes calls) d.unwritten
  amt : d.amt = (acceptedBytes calls).length
  readDone : 0 < bufferSize → d.readDone = calls.any IoCall.isEof

theorem directionInv_new (bufferSize : Nat) :
    DirectionInv bufferSize (DirectionalBuffer.new bufferSize) [] where
  wellFormed := wellFormed_new bufferSize
  length := by simp [DirectionalBuffer.new]
  transfer := by simp [Transfer, DirectionalBuffer.new, unwritten]
  amt := rfl
  readDone := fun _ => rfl

theorem DirectionInv.polled {bufferSize : Nat} {d d' : DirectionalBuffer}
    {calls calls' : List IoCall} {error : Option IoError} (h : DirectionInv bufferSize d calls)
    (hpoll : pollDirection d calls' = some (d', error)) :
    DirectionInv bufferSize d' (calls ++ calls') := by
  have hspec := pollDirection_spec hpoll h.wellFormed
  refine ⟨hspec.wellFormed, hspec.length.trans h.length, ?_, ?_, ?_⟩
  · simpa using h.transfer.trans hspec.transfer
  · rw [hspec.amt, h.amt]
    simp
  · intro hpos
    rw [hspec.readDone (by rw [h.length]; exact hpos), h.readDone hpos, List.any_append]

theorem DirectionInv.streamIntact {bufferSize : Nat} {d : DirectionalBuffer}
    {calls : List IoCall} (h : DirectionInv bufferSize d calls) : StreamIntact d calls where
  pos_le_cap := h.wellFormed.pos_le_cap
  cap_le_length := h.wellFormed.cap_le_length
  bytes := by simpa [Transfer] using h.transfer
  amt := h.amt

theorem DirectionInv.fullyDelivered {bufferSize : Nat} {d : DirectionalBuffer}
    {calls : List IoCall} (h : DirectionInv bufferSize d calls) (hpos : 0 < bufferSize)
    (hdone : d.isDone = true) (hclean : calls.any IoCall.isError = false) :
    FullyDelivered calls := by
  obtain ⟨hread, hdrained⟩ := h.wellFormed.done_drained hdone
  refine ⟨?_, ?_, hclean⟩
  · rw [← h.readDone hpos]
    exact hread
  · have htransfer := h.transfer
    rw [unwritten_eq_nil hdrained] at htransfer
    simpa using htransfer.drained

structure RelayInv (cfg : RelayConfig) (trace : Trace) (r : RelayFuture) : Prop where
  up : DirectionInv cfg.bufferSize r.state.aToB (upCalls trace)
  down : DirectionInv cfg.bufferSize r.state.bToA (downCalls trace)
  clean : (∀ e, r.returned ≠ some (.error e)) →
    (upCalls trace).any IoCall.isError = false ∧
      (downCalls trace).any IoCall.isError = false
  completed : ∀ result, r.returned = some (.ok result) → result.termination = .completed →
    r.state.aToB.isDone = true ∧ r.state.bToA.isDone = true

theorem relayInv_start (cfg : RelayConfig) (now : Nat) :
    RelayInv cfg [] (RelayFuture.start cfg now) where
  up := directionInv_new cfg.bufferSize
  down := directionInv_new cfg.bufferSize
  clean := fun _ => ⟨rfl, rfl⟩
  completed := by simp [RelayFuture.start]

@[simp] theorem settle_buffers (cfg : RelayConfig) (now : Nat) (s : RelayState)
    (aToB bToA : DirectionalBuffer) :
    (settle cfg now s aToB bToA).1.aToB = aToB ∧
      (settle cfg now s aToB bToA).1.bToA = bToA := by
  simp [settle]

theorem ended_buffers {now : Nat} {s s' : RelayState} {result : Poll (Except IoError Unit)}
    (h : checkTermination now s = (s', result)) : s'.aToB = s.aToB ∧ s'.bToA = s.bToA := by
  have hframe := checkTermination_frame now s
  rw [h] at hframe
  exact ⟨hframe.1, hframe.2.1⟩

/-- The buffers of a poll, polled or left alone. -/
theorem buffers_cases {cfg : RelayConfig} {s : RelayState} {p : PollCalls} {r' : RelayFuture}
    {effects : List Effect} (h : PollCase cfg s p r' effects) :
    (∃ error, pollDirection s.aToB p.up = some (r'.state.aToB, error)) ∧
      (r'.state.bToA = s.bToA ∧ p.down = [] ∨
        ∃ error, pollDirection s.bToA p.down = some (r'.state.bToA, error)) := by
  cases h with
  | upFailed hup hdown => exact ⟨⟨_, hup⟩, .inl ⟨rfl, hdown⟩⟩
  | downFailed hup hdown => exact ⟨⟨_, hup⟩, .inr ⟨_, hdown⟩⟩
  | suspended hup hdown _ =>
      simp only [settle_buffers]
      exact ⟨⟨_, hup⟩, .inr ⟨_, hdown⟩⟩
  | ended hup hdown hend =>
      obtain ⟨haToB, hbToA⟩ := ended_buffers hend
      rw [haToB, hbToA]
      simp only [settle_buffers]
      exact ⟨⟨_, hup⟩, .inr ⟨_, hdown⟩⟩

theorem isDone_of_completed {now : Nat} {s s' : RelayState}
    (h : checkTermination now s = (s', .ready (.ok ())))
    (hcompleted : s'.termination = .completed) :
    s'.aToB.isDone = true ∧ s'.bToA.isDone = true := by
  rcases checkTermination_cases now s with
    ⟨hup, hdown, hend⟩ | ⟨-, -, hend⟩ | ⟨-, hend⟩ | hend
  all_goals
    rw [hend] at h
    cases h
  · exact ⟨hup, hdown⟩
  · cases hcompleted
  · cases hcompleted

theorem RelayInv.step {cfg : RelayConfig} {trace : Trace} {r r' : RelayFuture}
    {p : PollCalls} {effects : List Effect} (h : RelayInv cfg trace r)
    (hstep : r.step cfg p = some (r', effects)) :
    RelayInv cfg (trace ++ [(p, effects)]) r' := by
  obtain ⟨hrunning, hcase⟩ := RelayFuture.step_cases hstep
  have hclean := h.clean (by simp [hrunning])
  obtain ⟨⟨_, hpolled⟩, hother⟩ := buffers_cases hcase
  refine ⟨?_, ?_, ?_, ?_⟩
  · rw [upCalls_snoc]
    exact h.up.polled hpolled
  · rw [downCalls_snoc]
    rcases hother with ⟨hsame, hnone⟩ | ⟨_, hpolled'⟩
    · rw [hsame, hnone, List.append_nil]
      exact h.down
    · exact h.down.polled hpolled'
  · intro hreturned
    cases hcase with
    | upFailed _ _ | downFailed _ _ => exact absurd rfl (hreturned _)
    | suspended hup hdown _ | ended hup hdown _ =>
        have hupClean := (pollDirection_spec hup h.up.wellFormed).clean
        have hdownClean := (pollDirection_spec hdown h.down.wellFormed).clean
        simp only [upCalls_snoc, downCalls_snoc, List.any_append]
        simp [hclean, hupClean, hdownClean]
  · intro result hresult hcompleted
    cases hcase with
    | ended _ _ hend =>
        cases hresult
        exact isDone_of_completed hend hcompleted
    | _ => cases hresult

theorem relayInv_run {cfg : RelayConfig} {now : Nat} {polls : List PollCalls}
    {r : RelayFuture} {trace : Trace}
    (hrun : copyBidirectionalWithStats cfg now polls = some (r, trace)) :
    RelayInv cfg trace r :=
  StepMachine.run_induction (run_of_copyBidirectionalWithStats hrun) (relayInv_start cfg now)
    fun _ _ _ _ _ h hstep => h.step hstep

/-- Relay byte-stream integrity, for every behaviour of the two streams. -/
theorem relay_stream_integrity (cfg : RelayConfig) (now : Nat) (polls : List PollCalls)
    (r : RelayFuture) (trace : Trace) (hbuffer : 0 < cfg.bufferSize)
    (hrun : copyBidirectionalWithStats cfg now polls = some (r, trace)) :
    StreamIntact r.state.aToB (upCalls trace) ∧
      StreamIntact r.state.bToA (downCalls trace) ∧
      ∀ result, r.returned = some (.ok result) → result.termination = .completed →
        FullyDelivered (upCalls trace) ∧ FullyDelivered (downCalls trace) := by
  have hinv := relayInv_run hrun
  refine ⟨hinv.up.streamIntact, hinv.down.streamIntact, ?_⟩
  intro result hresult hcompleted
  obtain ⟨hup, hdown⟩ := hinv.completed result hresult hcompleted
  obtain ⟨hupClean, hdownClean⟩ := hinv.clean (by simp [hresult])
  exact ⟨hinv.up.fullyDelivered hbuffer hup hupClean,
    hinv.down.fullyDelivered hbuffer hdown hdownClean⟩

/-- A client that sends two bytes and closes while the remote's writer is
stalled: the probe read sees the EOF before the bytes are written. -/
def stalledPolls : List PollCalls :=
  [{ now := 0
     up :=
      [.pollFlush (.ready (.ok ())),
       .pollRead 4 (.ready (.ok [7, 8])),
       .pollWrite [7, 8] .pending,
       .pollRead 2 (.ready (.ok []))]
     down :=
      [.pollFlush (.ready (.ok ())),
       .pollRead 4 (.ready (.ok [])),
       .pollFlush (.ready (.ok ())),
       .pollShutdown (.ready (.ok ()))] },
   { now := 1
     up :=
      [.pollWrite [7, 8] (.ready (.ok 1)),
       .pollWrite [8] (.ready (.ok 1)),
       .pollFlush .pending,
       .pollShutdown (.ready (.ok ()))]
     down := [] }]

theorem relay_stream_integrity_stalled :
    ∃ r trace,
      copyBidirectionalWithStats ⟨30, 5, 5, 4, none⟩ 0 stalledPolls = some (r, trace) ∧
        r.returned = some (.ok ⟨2, 0, .completed, true, true⟩) ∧
        FullyDelivered (upCalls trace) ∧ FullyDelivered (downCalls trace) :=
  ⟨_, _, rfl, rfl,
    (relay_stream_integrity ⟨30, 5, 5, 4, none⟩ 0 stalledPolls _ _ (by decide) rfl).2.2
      _ rfl rfl⟩

end TrojanServer.RelayIntegrity
