import TrojanServer.RelayIntegrity

namespace TrojanServer.RelayActivity

open TrojanServer.AsyncIo
open TrojanServer.PollCopy
open TrojanServer.PollCopy.DirectionalBuffer
open TrojanServer.Relay
open TrojanServer.RelayIntegrity

/-- Some byte is accepted and some flush succeeds, in either order: what the
poll closure takes for progress of a direction. -/
def delivers (calls : List IoCall) : Bool :=
  decide (acceptedBytes calls ≠ []) && calls.any IoCall.isFlushed

def fails (p : PollCalls) : Bool :=
  p.up.any IoCall.isFailure || p.down.any IoCall.isFailure

def activePoll (p : PollCalls) : Bool := delivers p.up || delivers p.down

structure TimerStep (cfg : RelayConfig) (s : RelayState) (p : PollCalls) (s' : RelayState)
    (effects : List Effect) : Prop where
  idleSleep : s'.idleSleep = if activePoll p then p.now + cfg.idleTimeout else s.idleSleep
  halfClose :
    ((∀ deadline, Effect.armHalfClose deadline ∉ effects) ∧
        s'.halfCloseActive = s.halfCloseActive ∧ s'.halfCloseTimeout = s.halfCloseTimeout ∧
        s'.halfCloseSleep =
          if activePoll p && s.halfCloseActive then p.now + s.halfCloseTimeout
          else s.halfCloseSleep) ∨
      (s.halfCloseActive = false ∧ s'.halfCloseActive = true ∧
        s'.halfCloseSleep = p.now + s'.halfCloseTimeout ∧
        ∀ deadline, Effect.armHalfClose deadline ∈ effects →
          deadline = p.now + s'.halfCloseTimeout)

theorem not_armHalfClose_mem_unreported {record : Nat → Effect} {transferred reported : Nat}
    (hrecord : ∀ deadline bytes, record bytes ≠ .armHalfClose deadline) (deadline : Nat) :
    Effect.armHalfClose deadline ∉ unreported record transferred reported := by
  unfold unreported
  split
  · simpa using (hrecord deadline _).symm
  · simp

theorem not_armHalfClose_mem_finalReport (cfg : RelayConfig) (s : RelayState)
    (deadline : Nat) : Effect.armHalfClose deadline ∉ finalReport cfg s := by
  unfold finalReport
  cases cfg.stats with
  | none => simp
  | some user =>
      simp only [List.mem_append, not_or]
      exact ⟨not_armHalfClose_mem_unreported (by simp) deadline,
        not_armHalfClose_mem_unreported (by simp) deadline⟩

theorem not_armHalfClose_mem_resetTimers (cfg : RelayConfig) (now : Nat) (progress : Bool)
    (s : RelayState) (deadline : Nat) :
    Effect.armHalfClose deadline ∉ (resetTimers cfg now progress s).2 := by
  unfold resetTimers
  cases progress <;> cases s.halfCloseActive <;> simp

theorem resetTimers_sleeps (cfg : RelayConfig) (now : Nat) (progress : Bool)
    (s : RelayState) :
    (resetTimers cfg now progress s).1.idleSleep =
        (if progress then now + cfg.idleTimeout else s.idleSleep) ∧
      (resetTimers cfg now progress s).1.halfCloseSleep =
        (if progress && s.halfCloseActive then now + s.halfCloseTimeout
          else s.halfCloseSleep) := by
  unfold resetTimers
  cases progress <;> cases hactive : s.halfCloseActive <;> simp

theorem timerStep_settle {cfg : RelayConfig} {s : RelayState} {p : PollCalls}
    {aToB bToA : DirectionalBuffer}
    (hprogress : (madeProgress s.aToB aToB || madeProgress s.bToA bToA) = activePoll p) :
    TimerStep cfg s p (settle cfg p.now s aToB bToA).1 (settle cfg p.now s aToB bToA).2 := by
  unfold settle
  rw [hprogress]
  constructor
  · simp [resetTimers_sleeps]
  · rcases armHalfClose_cases cfg p.now { s with aToB, bToA } with
      harm | ⟨hactive, timeout, -, harm⟩
    · refine .inl ⟨?_, ?_⟩
      · intro deadline
        simp [harm, reportTraffic_effects, not_armHalfClose_mem_finalReport,
          not_armHalfClose_mem_resetTimers]
      · simp [harm, resetTimers_sleeps]
    · refine .inr ⟨hactive, ?_⟩
      simp [harm, resetTimers_sleeps, reportTraffic_effects, not_armHalfClose_mem_finalReport,
        not_armHalfClose_mem_resetTimers]

/-- The deadlines after a poll: left alone if it fails, and otherwise set by
`TimerStep`. -/
theorem timerCase_of_step {cfg : RelayConfig} {r r' : RelayFuture} {p : PollCalls}
    {effects : List Effect} (hwfUp : r.state.aToB.WellFormed)
    (hwfDown : r.state.bToA.WellFormed) (hstep : r.step cfg p = some (r', effects)) :
    (fails p = true ∧ (∃ e, r'.returned = some (.error e)) ∧
        r'.state.idleSleep = r.state.idleSleep ∧
        r'.state.halfCloseSleep = r.state.halfCloseSleep ∧
        r'.state.halfCloseActive = r.state.halfCloseActive) ∨
      (fails p = false ∧ TimerStep cfg r.state p r'.state effects) := by
  obtain ⟨-, hcase⟩ := RelayFuture.step_cases hstep
  have hsettled : ∀ {aToB bToA : DirectionalBuffer},
      pollDirection r.state.aToB p.up = some (aToB, none) →
      pollDirection r.state.bToA p.down = some (bToA, none) →
      fails p = false ∧
        (madeProgress r.state.aToB aToB || madeProgress r.state.bToA bToA) = activePoll p := by
    intro aToB bToA hup hdown
    have hspecUp := pollDirection_spec hup hwfUp
    have hspecDown := pollDirection_spec hdown hwfDown
    constructor
    · simp [fails, hspecUp.failure, hspecDown.failure]
    · rw [hspecUp.madeProgress_eq, hspecDown.madeProgress_eq]
      rfl
  cases hcase with
  | upFailed hup hdown =>
      have hspec := pollDirection_spec hup hwfUp
      exact .inl ⟨by simp [fails, hspec.failure], ⟨_, rfl⟩, rfl, rfl, rfl⟩
  | downFailed hup hdown =>
      have hspec := pollDirection_spec hdown hwfDown
      exact .inl ⟨by simp [fails, hspec.failure], ⟨_, rfl⟩, rfl, rfl, rfl⟩
  | suspended hup hdown hend =>
      obtain ⟨hfine, hprogress⟩ := hsettled hup hdown
      exact .inr ⟨hfine, timerStep_settle hprogress⟩
  | @ended aToB bToA s' hup hdown hend =>
      obtain ⟨hfine, hprogress⟩ := hsettled hup hdown
      have htimers : TimerStep cfg r.state p _ _ := timerStep_settle hprogress
      have hframe := checkTermination_frame p.now (settle cfg p.now r.state aToB bToA).1
      simp only [hend] at hframe
      obtain ⟨-, -, hidle, -, -, hsleep, hactive, htimeout⟩ := hframe
      refine .inr ⟨hfine, ?_, ?_⟩
      · simpa only [hidle] using htimers.idleSleep
      · simpa only [hsleep, hactive, htimeout, List.mem_append,
          not_armHalfClose_mem_finalReport, or_false] using htimers.halfClose

/-- Both writers are flushed, and neither reader has anything. -/
def quietPoll (now : Nat) : PollCalls where
  now
  up := [.pollFlush (.ready (.ok ())), .pollRead 4 .pending]
  down := [.pollFlush (.ready (.ok ())), .pollRead 4 .pending]

end TrojanServer.RelayActivity
