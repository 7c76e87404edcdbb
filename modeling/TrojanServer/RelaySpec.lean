import TrojanServer.Relay

namespace TrojanServer.Relay

open TrojanServer.AsyncIo
open TrojanServer.FifoTransfer
open TrojanServer.PollCopy
open TrojanServer.PollCopy.DirectionalBuffer

structure DirectionSpec (d : DirectionalBuffer) (calls : List IoCall)
    (d' : DirectionalBuffer) (error : Option IoError) : Prop where
  wellFormed : d'.WellFormed
  transfer : Transfer d.unwritten (returnedBytes calls) (acceptedBytes calls) d'.unwritten
  amt : d'.amt = d.amt + (acceptedBytes calls).length
  readDone : 0 < d.buf.length → d'.readDone = (d.readDone || calls.any IoCall.isEof)
  flushOk : calls ≠ [] → d'.flushOk = calls.any IoCall.isFlushed
  length : d'.buf.length = d.buf.length
  failure : calls.any IoCall.isFailure = error.isSome

theorem DirectionSpec.clean {d d' : DirectionalBuffer} {calls : List IoCall}
    (h : DirectionSpec d calls d' none) : calls.any IoCall.isError = false :=
  any_isError_of_any_isFailure h.failure

theorem directionSpec_of_copySpec {d d' : DirectionalBuffer} {calls : List IoCall}
    {error : Option IoError} (hspec : CopySpec { d with flushOk := false } calls d')
    (hfailure : calls.any IoCall.isFailure = error.isSome) :
    DirectionSpec d calls d' error where
  wellFormed := hspec.wellFormed
  transfer := hspec.transfer
  amt := hspec.amt
  readDone := hspec.readDone
  flushOk := by
    intro _
    simpa using hspec.flushOk
  length := hspec.length
  failure := hfailure

theorem pollDirection_spec {d d' : DirectionalBuffer} {calls : List IoCall}
    {error : Option IoError} (h : pollDirection d calls = some (d', error))
    (hwf : d.WellFormed) : DirectionSpec d calls d' error := by
  unfold pollDirection at h
  split at h
  · rename_i hdone
    have hdone : d.isDone = false := by simpa using hdone
    split at h
    · simp at h
    · rename_i d₁ e hpoll
      cases h
      obtain ⟨hspec, hfails⟩ := pollCopy_spec hpoll hwf hdone
      exact directionSpec_of_copySpec hspec (hfails.mpr ⟨e, rfl⟩)
    · rename_i d₁ result hresult hpoll
      cases h
      obtain ⟨hspec, hfails⟩ := pollCopy_spec hpoll hwf hdone
      apply directionSpec_of_copySpec hspec
      rw [Option.isSome_none, Bool.eq_false_iff]
      intro hany
      obtain ⟨e, rfl⟩ := hfails.mp hany
      exact hresult e rfl
  · split at h
    · rename_i hcalls
      subst hcalls
      cases h
      exact ⟨hwf, Transfer.refl _, by simp, by simp, by simp, rfl, by simp⟩
    · simp at h

/-- Progress, as the poll closure measures it, read off the I/O calls: some
byte was accepted and some flush succeeded. -/
theorem DirectionSpec.madeProgress_eq {d d' : DirectionalBuffer} {calls : List IoCall}
    {error : Option IoError} (h : DirectionSpec d calls d' error) :
    madeProgress d d' =
      (decide (acceptedBytes calls ≠ []) && calls.any IoCall.isFlushed) := by
  unfold madeProgress bytesTransferred hasFlushed
  rw [h.amt]
  by_cases hcalls : calls = []
  · simp [hcalls]
  · rw [h.flushOk hcalls]
    congr 1
    simp [List.length_pos_iff]

section Blocks

variable (cfg : RelayConfig) (now : Nat) (s : RelayState)

theorem armHalfCloseFor_cases (finished remaining : DirectionalBuffer) (timeout : Nat) :
    (armHalfCloseFor finished remaining timeout now s = (s, [])) ∨
      (finished.isDrained = true ∧ remaining.isDone = false ∧ s.halfCloseActive = false ∧
        armHalfCloseFor finished remaining timeout now s =
          ({ s with halfCloseActive := true
                    halfCloseTimeout := timeout
                    halfCloseSleep := now + timeout },
            [.armHalfClose (now + timeout)])) := by
  unfold armHalfCloseFor
  split
  · rename_i h
    simp only [Bool.and_eq_true, Bool.not_eq_true'] at h
    exact .inr ⟨h.1.1, h.1.2, h.2, rfl⟩
  · exact .inl rfl

theorem armHalfClose_cases :
    (armHalfClose cfg now s = (s, [])) ∨
      (s.halfCloseActive = false ∧ ∃ timeout,
        ((s.aToB.isDrained = true ∧ s.bToA.isDone = false ∧
            timeout = cfg.downlinkOnlyTimeout) ∨
          (s.bToA.isDrained = true ∧ s.aToB.isDone = false ∧
            timeout = cfg.uplinkOnlyTimeout)) ∧
        armHalfClose cfg now s =
          ({ s with halfCloseActive := true
                    halfCloseTimeout := timeout
                    halfCloseSleep := now + timeout },
            [.armHalfClose (now + timeout)])) := by
  unfold armHalfClose
  rcases armHalfCloseFor_cases now s s.aToB s.bToA cfg.downlinkOnlyTimeout with
    h | ⟨hdrained, hdone, hactive, h⟩
  · rcases armHalfCloseFor_cases now s s.bToA s.aToB cfg.uplinkOnlyTimeout with
      h' | ⟨hdrained, hdone, hactive, h'⟩
    · exact .inl (by simp [h, h'])
    · exact .inr ⟨hactive, _, .inr ⟨hdrained, hdone, rfl⟩, by simp [h, h']⟩
  · refine .inr ⟨hactive, _, .inl ⟨hdrained, hdone, rfl⟩, ?_⟩
    rw [h]
    simp [armHalfCloseFor]

@[simp] theorem armHalfClose_frame :
    (armHalfClose cfg now s).1.aToB = s.aToB ∧
      (armHalfClose cfg now s).1.bToA = s.bToA ∧
      (armHalfClose cfg now s).1.idleSleep = s.idleSleep ∧
      (armHalfClose cfg now s).1.reportedUp = s.reportedUp ∧
      (armHalfClose cfg now s).1.reportedDown = s.reportedDown := by
  rcases armHalfClose_cases cfg now s with h | ⟨-, timeout, -, h⟩ <;> simp [h]

@[simp] theorem reportTraffic_frame :
    (reportTraffic cfg s).1.aToB = s.aToB ∧
      (reportTraffic cfg s).1.bToA = s.bToA ∧
      (reportTraffic cfg s).1.idleSleep = s.idleSleep ∧
      (reportTraffic cfg s).1.halfCloseSleep = s.halfCloseSleep ∧
      (reportTraffic cfg s).1.halfCloseActive = s.halfCloseActive ∧
      (reportTraffic cfg s).1.halfCloseTimeout = s.halfCloseTimeout := by
  unfold reportTraffic
  cases cfg.stats <;> simp

/-- A poll reports what a final report at this point would. -/
theorem reportTraffic_effects : (reportTraffic cfg s).2 = finalReport cfg s := by
  unfold reportTraffic finalReport
  cases cfg.stats <;> rfl

@[simp] theorem resetTimers_frame (progress : Bool) :
    (resetTimers cfg now progress s).1.aToB = s.aToB ∧
      (resetTimers cfg now progress s).1.bToA = s.bToA ∧
      (resetTimers cfg now progress s).1.reportedUp = s.reportedUp ∧
      (resetTimers cfg now progress s).1.reportedDown = s.reportedDown ∧
      (resetTimers cfg now progress s).1.halfCloseActive = s.halfCloseActive ∧
      (resetTimers cfg now progress s).1.halfCloseTimeout = s.halfCloseTimeout := by
  unfold resetTimers
  cases progress <;> cases hactive : s.halfCloseActive <;> simp [hactive]

@[simp] theorem checkTermination_frame :
    (checkTermination now s).1.aToB = s.aToB ∧
      (checkTermination now s).1.bToA = s.bToA ∧
      (checkTermination now s).1.idleSleep = s.idleSleep ∧
      (checkTermination now s).1.reportedUp = s.reportedUp ∧
      (checkTermination now s).1.reportedDown = s.reportedDown ∧
      (checkTermination now s).1.halfCloseSleep = s.halfCloseSleep ∧
      (checkTermination now s).1.halfCloseActive = s.halfCloseActive ∧
      (checkTermination now s).1.halfCloseTimeout = s.halfCloseTimeout := by
  unfold checkTermination
  split
  · simp
  · split
    · simp
    · split <;> simp

theorem checkTermination_cases :
    (s.aToB.isDone = true ∧ s.bToA.isDone = true ∧
        checkTermination now s = ({ s with termination := .completed }, .ready (.ok ()))) ∨
      (s.halfCloseActive = true ∧ s.halfCloseSleep ≤ now ∧
        checkTermination now s =
          ({ s with termination := .halfCloseTimeout }, .ready (.ok ()))) ∨
      (s.idleSleep ≤ now ∧
        checkTermination now s = ({ s with termination := .idleTimeout }, .ready (.ok ()))) ∨
      checkTermination now s = (s, .pending) := by
  unfold checkTermination
  split
  · rename_i h
    simp only [Bool.and_eq_true] at h
    exact .inl ⟨h.1, h.2, rfl⟩
  · split
    · rename_i h
      simp only [Bool.and_eq_true, decide_eq_true_eq] at h
      exact .inr (.inl ⟨h.1, h.2, rfl⟩)
    · split
      · exact .inr (.inr (.inl ⟨‹_›, rfl⟩))
      · exact .inr (.inr (.inr rfl))

end Blocks

/-- The state and the effects of a poll in which neither direction failed, up
to the check for termination. -/
def settle (cfg : RelayConfig) (now : Nat) (s : RelayState) (aToB bToA : DirectionalBuffer) :
    RelayState × List Effect :=
  let armed := armHalfClose cfg now { s with aToB, bToA }
  let reported := reportTraffic cfg armed.1
  let reset := resetTimers cfg now
    (madeProgress s.aToB aToB || madeProgress s.bToA bToA) reported.1
  (reset.1, armed.2 ++ reported.2 ++ reset.2)

theorem poll_eq_settle {cfg : RelayConfig} {s : RelayState} {p : PollCalls}
    {aToB bToA : DirectionalBuffer} (hup : pollDirection s.aToB p.up = some (aToB, none))
    (hdown : pollDirection s.bToA p.down = some (bToA, none)) :
    poll cfg s p =
      some ((checkTermination p.now (settle cfg p.now s aToB bToA).1).1,
        (settle cfg p.now s aToB bToA).2,
        (checkTermination p.now (settle cfg p.now s aToB bToA).1).2) := by
  simp only [poll, hup, hdown]
  rfl

inductive PollCase (cfg : RelayConfig) (s : RelayState) (p : PollCalls) :
    RelayFuture → List Effect → Prop
  | upFailed {aToB : DirectionalBuffer} {e : IoError}
      (hup : pollDirection s.aToB p.up = some (aToB, some e)) (hdown : p.down = []) :
      PollCase cfg s p ⟨{ s with aToB, termination := .error }, some (.error e)⟩
        (finalReport cfg { s with aToB, termination := .error })
  | downFailed {aToB bToA : DirectionalBuffer} {e : IoError}
      (hup : pollDirection s.aToB p.up = some (aToB, none))
      (hdown : pollDirection s.bToA p.down = some (bToA, some e)) :
      PollCase cfg s p ⟨{ s with aToB, bToA, termination := .error }, some (.error e)⟩
        (finalReport cfg { s with aToB, bToA, termination := .error })
  | suspended {aToB bToA : DirectionalBuffer}
      (hup : pollDirection s.aToB p.up = some (aToB, none))
      (hdown : pollDirection s.bToA p.down = some (bToA, none))
      (hend : checkTermination p.now (settle cfg p.now s aToB bToA).1 =
        ((settle cfg p.now s aToB bToA).1, .pending)) :
      PollCase cfg s p ⟨(settle cfg p.now s aToB bToA).1, none⟩
        (settle cfg p.now s aToB bToA).2
  | ended {aToB bToA : DirectionalBuffer} {s' : RelayState}
      (hup : pollDirection s.aToB p.up = some (aToB, none))
      (hdown : pollDirection s.bToA p.down = some (bToA, none))
      (hend : checkTermination p.now (settle cfg p.now s aToB bToA).1 =
        (s', .ready (.ok ()))) :
      PollCase cfg s p ⟨s', some (.ok (copyResult s'))⟩
        ((settle cfg p.now s aToB bToA).2 ++ finalReport cfg s')

theorem RelayFuture.step_cases {cfg : RelayConfig} {r r' : RelayFuture} {p : PollCalls}
    {effects : List Effect} (h : r.step cfg p = some (r', effects)) :
    r.returned = none ∧ PollCase cfg r.state p r' effects := by
  obtain ⟨s, _ | returned⟩ := r
  · refine ⟨rfl, ?_⟩
    rcases hup : pollDirection s.aToB p.up with _ | ⟨aToB, _ | e⟩
    · simp [RelayFuture.step, poll, hup] at h
    · rcases hdown : pollDirection s.bToA p.down with _ | ⟨bToA, _ | e⟩
      · simp [RelayFuture.step, poll, hup, hdown] at h
      · simp only [RelayFuture.step, poll_eq_settle hup hdown] at h
        rcases checkTermination_cases p.now (settle cfg p.now s aToB bToA).1 with
          ⟨-, -, hend⟩ | ⟨-, -, hend⟩ | ⟨-, hend⟩ | hend
        all_goals
          rw [hend] at h
          cases h
        · exact .ended hup hdown hend
        · exact .ended hup hdown hend
        · exact .ended hup hdown hend
        · exact .suspended hup hdown hend
      · simp only [RelayFuture.step, poll, hup, hdown, List.nil_append] at h
        cases h
        exact .downFailed hup hdown
    · by_cases hdown : p.down = []
      · simp only [RelayFuture.step, poll, hup, hdown, if_true, List.nil_append] at h
        cases h
        exact .upFailed hup hdown
      · simp [RelayFuture.step, poll, hup, hdown] at h
  · simp [RelayFuture.step] at h

end TrojanServer.Relay
