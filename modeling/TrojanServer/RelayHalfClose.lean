import TrojanServer.RelayActivity

namespace TrojanServer.RelayHalfClose

open TrojanServer.AsyncIo
open TrojanServer.PollCopy
open TrojanServer.PollCopy.DirectionalBuffer
open TrojanServer.Relay
open TrojanServer.RelayIntegrity
open TrojanServer.RelayActivity

/-- The reader reported end of file. -/
def isEmptyRead : IoCall → Bool
  | .pollRead _ (.ready (.ok [])) => true
  | _ => false

def isShutDown : IoCall → Bool
  | .pollShutdown (.ready _) => true
  | _ => false

/-- End of file was reported, and every byte read was accepted by the writer. -/
def drained (calls : List IoCall) : Bool :=
  calls.any isEmptyRead && decide (acceptedBytes calls = returnedBytes calls)

def done (calls : List IoCall) : Bool := calls.any isShutDown

def Drained (trace : Trace) : Prop :=
  drained (upCalls trace) = true ∨ drained (downCalls trace) = true

def window (cfg : RelayConfig) (trace : Trace) : Nat :=
  if drained (upCalls trace) && !done (downCalls trace) then cfg.downlinkOnlyTimeout
  else cfg.uplinkOnlyTimeout

/-- The window was chosen at the poll in which a direction was first drained. -/
def ArmedWith (cfg : RelayConfig) (trace : Trace) (timeout : Nat) : Prop :=
  ∃ before p effects after, trace = before ++ (p, effects) :: after ∧ ¬ Drained before ∧
    Drained (before ++ [(p, effects)]) ∧ timeout = window cfg (before ++ [(p, effects)])

section Direction

/-- The flags of a direction against its calls. -/
structure Flags (d : DirectionalBuffer) (calls : List IoCall) (d' : DirectionalBuffer) : Prop where
  readDone : d'.readDone = (d.readDone || calls.any isEmptyRead)
  shutdownDone : d'.shutdownDone = (d.shutdownDone || calls.any isShutDown)

variable {d d' : DirectionalBuffer} {calls : List IoCall}

theorem flags_step {point : CopyPoint} {c : IoCall} {out : CopyStep}
    (h : CopyCase d point c out) : Flags d [c] out.buffer := by
  cases h with
  | @probed bytes hne _ =>
      cases bytes with
      | nil => exact absurd rfl hne
      | cons b bytes => constructor <;> simp [CopyStep.buffer, isEmptyRead, isShutDown]
  | @read bytes hne _ =>
      cases bytes with
      | nil => exact absurd rfl hne
      | cons b bytes => constructor <;> simp [CopyStep.buffer, isEmptyRead, isShutDown]
  | _ => constructor <;> simp [CopyStep.buffer, isEmptyRead, isShutDown]

theorem Flags.trans {d₁ : DirectionalBuffer} {calls' : List IoCall} (h : Flags d calls d₁)
    (h' : Flags d₁ calls' d') : Flags d (calls ++ calls') d' where
  readDone := by rw [h'.readDone, h.readDone, List.any_append, Bool.or_assoc]
  shutdownDone := by rw [h'.shutdownDone, h.shutdownDone, List.any_append, Bool.or_assoc]

theorem flags_pollCopyFrom {point : CopyPoint} {result : Poll (Except IoError Unit)}
    (h : d.pollCopyFrom point calls = some (d', result)) : Flags d calls d' := by
  have hrun := copyRun_of_pollCopyFrom h
  clear h
  induction hrun with
  | last hcase => exact flags_step hcase
  | @more d d₁ _ _ _ c _ _ hcase _ ih =>
      have hfirst : Flags d [c] d₁ := flags_step hcase
      exact hfirst.trans ih

/-- A direction that is not done runs the loop of `poll_copy`. -/
theorem pollDirection_cases {error : Option IoError}
    (h : pollDirection d calls = some (d', error)) :
    d' = d ∧ calls = [] ∨ ∃ result, { d with flushOk := false }.pollCopyFrom
      { d with flushOk := false }.loopHead calls = some (d', result) := by
  unfold pollDirection at h
  split at h
  · rename_i hdone
    have hopen : ¬ d.shutdownDone = true := by simpa [isDone] using hdone
    rw [pollCopy, if_neg hopen] at h
    split at h
    · cases h
    · rename_i hpoll
      cases h
      exact .inr ⟨_, hpoll⟩
    · rename_i hpoll
      cases h
      exact .inr ⟨_, hpoll⟩
  · split at h
    · rename_i hcalls
      cases h
      exact .inl ⟨rfl, hcalls⟩
    · cases h

theorem flags_pollDirection {error : Option IoError}
    (h : pollDirection d calls = some (d', error)) : Flags d calls d' := by
  rcases pollDirection_cases h with ⟨rfl, rfl⟩ | ⟨result, hpoll⟩
  · exact ⟨by simp, by simp⟩
  · have hflags := flags_pollCopyFrom hpoll
    exact ⟨hflags.readDone, hflags.shutdownDone⟩

/-- A drained direction only flushes and shuts down. -/
theorem isDrained_pollCopyFrom {point : CopyPoint} {result : Poll (Except IoError Unit)}
    (hdrained : d.isDrained = true) (hpoint : point = .flush ∨ point = .shutdown)
    (h : d.pollCopyFrom point calls = some (d', result)) : d'.isDrained = true := by
  have hrun := copyRun_of_pollCopyFrom h
  clear h
  induction hrun with
  | last hcase =>
      rcases hpoint with rfl | rfl
      · cases hcase
        exact hdrained
      · cases hcase
        · exact hdrained
        · exact hdrained
  | @more d _ _ _ _ _ _ _ hcase _ ih =>
      have hread : d.readDone = true := (Bool.and_eq_true_iff.mp hdrained).1
      have hafter : d.afterFlush = .shutdown := by simp [afterFlush, hread]
      rcases hpoint with rfl | rfl
      · cases hcase
        · exact ih hdrained (.inr hafter)
        · exact ih hdrained (.inr hafter)
      · cases hcase

theorem isDrained_pollDirection {error : Option IoError} (hdrained : d.isDrained = true)
    (h : pollDirection d calls = some (d', error)) : d'.isDrained = true := by
  rcases pollDirection_cases h with ⟨rfl, -⟩ | ⟨result, hpoll⟩
  · exact hdrained
  · have hcap : d.cap ≤ d.pos := by simpa using (Bool.and_eq_true_iff.mp hdrained).2
    have hhead : { d with flushOk := false }.loopHead = .flush := by
      simp [loopHead, Nat.not_lt.mpr hcap]
    exact isDrained_pollCopyFrom (d := { d with flushOk := false }) hdrained (.inl hhead) hpoll

/-- A direction as the calls of a whole run left it. -/
structure DirectionFlags (d : DirectionalBuffer) (calls : List IoCall) : Prop where
  readDone : d.readDone = calls.any isEmptyRead
  shutdownDone : d.shutdownDone = done calls

theorem DirectionFlags.polled {calls' : List IoCall} {error : Option IoError}
    (h : DirectionFlags d calls) (hpoll : pollDirection d calls' = some (d', error)) :
    DirectionFlags d' (calls ++ calls') := by
  have hflags := flags_pollDirection hpoll
  refine ⟨?_, ?_⟩
  · rw [hflags.readDone, h.readDone, List.any_append]
  · rw [hflags.shutdownDone, h.shutdownDone, done, done, List.any_append]

theorem isDrained_eq {bufferSize : Nat} (hinv : DirectionInv bufferSize d calls)
    (hflags : DirectionFlags d calls) : d.isDrained = drained calls := by
  have hbytes := hinv.streamIntact.bytes
  have hlength := unwritten_length hinv.wellFormed.cap_le_length
  rw [isDrained, drained, hflags.readDone]
  congr 1
  rw [decide_eq_decide, ← hbytes]
  constructor
  · intro hcap
    have hnil : d.unwritten = [] := List.length_eq_zero_iff.mp (by omega)
    simp [hnil]
  · intro hall
    have hnil : d.unwritten = [] := by simpa using hall
    rw [hnil, List.length_nil] at hlength
    omega

theorem isDrained_of_isDone (hwf : d.WellFormed) (h : d.isDone = true) : d.isDrained = true := by
  obtain ⟨hread, hpos⟩ := hwf.done_drained h
  simp [isDrained, hread, hpos]

end Direction

section Arming

variable (cfg : RelayConfig) (now : Nat) (s : RelayState)

/-- One direction is drained while the other is not done. -/
def arms (finished remaining : DirectionalBuffer) : Bool :=
  finished.isDrained && !remaining.isDone

/-- A direction that is done is drained, so unless both are done one of them arms. -/
theorem arms_of_drained {d d' : DirectionalBuffer} (hwf : d.WellFormed) (hwf' : d'.WellFormed)
    (hdrained : d.isDrained = true ∨ d'.isDrained = true)
    (hnot : ¬ (d.isDone = true ∧ d'.isDone = true)) : arms d d' = true ∨ arms d' d = true := by
  simp only [arms, Bool.and_eq_true, Bool.not_eq_true']
  cases hdone : d.isDone with
  | true =>
      have hopen : d'.isDone = false := by simpa [hdone] using hnot
      exact .inl ⟨isDrained_of_isDone hwf hdone, hopen⟩
  | false =>
      cases hdone' : d'.isDone with
      | true => exact .inr ⟨isDrained_of_isDone hwf' hdone', rfl⟩
      | false => exact hdrained.imp (fun h => ⟨h, rfl⟩) fun h => ⟨h, rfl⟩

theorem armHalfClose_eq :
    (armHalfClose cfg now s).1.halfCloseActive =
        (s.halfCloseActive || arms s.aToB s.bToA || arms s.bToA s.aToB) ∧
      (armHalfClose cfg now s).1.halfCloseTimeout =
        (if s.halfCloseActive then s.halfCloseTimeout
          else if arms s.aToB s.bToA then cfg.downlinkOnlyTimeout
          else if arms s.bToA s.aToB then cfg.uplinkOnlyTimeout
          else s.halfCloseTimeout) := by
  unfold armHalfClose armHalfCloseFor arms
  cases hactive : s.halfCloseActive <;> cases s.aToB.isDrained && !s.bToA.isDone <;>
    cases s.bToA.isDrained && !s.aToB.isDone <;> simp [hactive]

theorem settle_halfClose (aToB bToA : DirectionalBuffer) :
    (settle cfg now s aToB bToA).1.halfCloseActive =
        (s.halfCloseActive || arms aToB bToA || arms bToA aToB) ∧
      (settle cfg now s aToB bToA).1.halfCloseTimeout =
        (if s.halfCloseActive then s.halfCloseTimeout
          else if arms aToB bToA then cfg.downlinkOnlyTimeout
          else if arms bToA aToB then cfg.uplinkOnlyTimeout
          else s.halfCloseTimeout) := by
  have harm := armHalfClose_eq cfg now { s with aToB, bToA }
  simp only [settle, resetTimers_frame, reportTraffic_frame]
  exact harm

end Arming

section Run

structure HalfCloseInv (cfg : RelayConfig) (trace : Trace) (r : RelayFuture) : Prop where
  up : DirectionFlags r.state.aToB (upCalls trace)
  down : DirectionFlags r.state.bToA (downCalls trace)
  suspended : r.returned = none → Drained trace → r.state.halfCloseActive = true
  active : r.state.halfCloseActive = true →
    Drained trace ∧ ArmedWith cfg trace r.state.halfCloseTimeout
  arming : ∀ before p effects, trace = before ++ [(p, effects)] → ¬ Drained before →
    r.state.halfCloseActive = true → r.state.halfCloseSleep = p.now + r.state.halfCloseTimeout
  expired : ∀ result, r.returned = some (.ok result) →
    result.termination = .halfCloseTimeout → r.state.halfCloseActive = true

theorem halfCloseInv_start (cfg : RelayConfig) (now : Nat) :
    HalfCloseInv cfg [] (RelayFuture.start cfg now) where
  up := ⟨rfl, rfl⟩
  down := ⟨rfl, rfl⟩
  suspended := by simp [Drained, drained, upCalls, downCalls]
  active := by simp [RelayFuture.start, RelayState.start]
  arming := by simp
  expired := by simp [RelayFuture.start]

theorem ArmedWith.snoc {cfg : RelayConfig} {trace : Trace} {timeout : Nat}
    (h : ArmedWith cfg trace timeout) (event : PollCalls × List Effect) :
    ArmedWith cfg (trace ++ [event]) timeout := by
  obtain ⟨before, p, effects, after, rfl, hrest⟩ := h
  exact ⟨before, p, effects, after ++ [event], by simp, hrest⟩

variable {cfg : RelayConfig} {trace : Trace} {r r' : RelayFuture} {p : PollCalls}
  {effects : List Effect}

theorem drained_iff (hrelay : RelayInv cfg trace r)
    (hup : DirectionFlags r.state.aToB (upCalls trace))
    (hdown : DirectionFlags r.state.bToA (downCalls trace)) :
    Drained trace ↔ r.state.aToB.isDrained = true ∨ r.state.bToA.isDrained = true := by
  rw [Drained, isDrained_eq hrelay.up hup, isDrained_eq hrelay.down hdown]

theorem window_eq (hrelay : RelayInv cfg trace r)
    (hup : DirectionFlags r.state.aToB (upCalls trace))
    (hdown : DirectionFlags r.state.bToA (downCalls trace)) :
    window cfg trace =
      if arms r.state.aToB r.state.bToA then cfg.downlinkOnlyTimeout
      else cfg.uplinkOnlyTimeout := by
  rw [window, arms, isDrained_eq hrelay.up hup, isDone, hdown.shutdownDone]

theorem directionFlags_step {s : RelayState} (h : PollCase cfg s p r' effects)
    (hup : DirectionFlags s.aToB (upCalls trace))
    (hdown : DirectionFlags s.bToA (downCalls trace)) :
    DirectionFlags r'.state.aToB (upCalls (trace ++ [(p, effects)])) ∧
      DirectionFlags r'.state.bToA (downCalls (trace ++ [(p, effects)])) := by
  rw [upCalls_snoc, downCalls_snoc]
  obtain ⟨⟨_, hpolled⟩, ⟨hsame, hnone⟩ | ⟨_, hpolled'⟩⟩ := buffers_cases h
  · rw [hsame, hnone, List.append_nil]
    exact ⟨hup.polled hpolled, hdown⟩
  · exact ⟨hup.polled hpolled, hdown.polled hpolled'⟩

/-- A direction stays drained. -/
theorem isDrained_step {s : RelayState} (h : PollCase cfg s p r' effects)
    (hdrained : s.aToB.isDrained = true ∨ s.bToA.isDrained = true) :
    r'.state.aToB.isDrained = true ∨ r'.state.bToA.isDrained = true := by
  obtain ⟨⟨_, hpolled⟩, hdown⟩ := buffers_cases h
  rcases hdrained with hup | hdrained
  · exact .inl (isDrained_pollDirection hup hpolled)
  · rcases hdown with ⟨hsame, -⟩ | ⟨_, hpolled'⟩
    · rw [hsame]
      exact .inr hdrained
    · exact .inr (isDrained_pollDirection hdrained hpolled')

/-- What a poll does to the half-close timer. -/
theorem halfClose_cases {s : RelayState} (h : PollCase cfg s p r' effects) :
    ((∃ e, r'.returned = some (.error e)) ∧
        r'.state.halfCloseActive = s.halfCloseActive ∧
        r'.state.halfCloseTimeout = s.halfCloseTimeout) ∨
      (r'.state.halfCloseActive = (s.halfCloseActive || arms r'.state.aToB r'.state.bToA ||
          arms r'.state.bToA r'.state.aToB) ∧
        r'.state.halfCloseTimeout =
          (if s.halfCloseActive then s.halfCloseTimeout
            else if arms r'.state.aToB r'.state.bToA then cfg.downlinkOnlyTimeout
            else if arms r'.state.bToA r'.state.aToB then cfg.uplinkOnlyTimeout
            else s.halfCloseTimeout) ∧
        (r'.returned = none → ¬ (r'.state.aToB.isDone = true ∧ r'.state.bToA.isDone = true)) ∧
        ∀ result, r'.returned = some (.ok result) → result.termination = .halfCloseTimeout →
          r'.state.halfCloseActive = true) := by
  cases h with
  | upFailed _ _ => exact .inl ⟨⟨_, rfl⟩, rfl, rfl⟩
  | downFailed _ _ => exact .inl ⟨⟨_, rfl⟩, rfl, rfl⟩
  | @suspended aToB bToA _ _ hend =>
      obtain ⟨hactive, htimeout⟩ := settle_halfClose cfg p.now s aToB bToA
      refine .inr ⟨?_, ?_, fun _ hdone => ?_, by simp⟩
      · simpa only [settle_buffers] using hactive
      · simpa only [settle_buffers] using htimeout
      · rw [checkTermination, if_pos (by simpa using hdone)] at hend
        cases congrArg Prod.snd hend
  | @ended aToB bToA s' _ _ hend =>
      obtain ⟨hactive, htimeout⟩ := settle_halfClose cfg p.now s aToB bToA
      have hframe := checkTermination_frame p.now (settle cfg p.now s aToB bToA).1
      rw [hend] at hframe
      obtain ⟨haToB, hbToA, -, -, -, -, hactive', htimeout'⟩ := hframe
      rw [(settle_buffers ..).1] at haToB
      rw [(settle_buffers ..).2] at hbToA
      refine .inr ⟨?_, ?_, by simp, ?_⟩
      · rw [hactive', hactive, haToB, hbToA]
      · rw [htimeout', htimeout, haToB, hbToA]
      · intro result hresult hexpired
        cases hresult
        rcases checkTermination_cases p.now (settle cfg p.now s aToB bToA).1 with
          ⟨-, -, hcase⟩ | ⟨hset, -, hcase⟩ | ⟨-, hcase⟩ | hcase
        all_goals
          rw [hcase] at hend
          cases hend
        · cases hexpired
        · exact hset
        · cases hexpired

/-- The poll that opens the half-close window starts it at its own time. -/
theorem halfCloseSleep_of_armed (hrelay : RelayInv cfg trace r)
    (hstep : r.step cfg p = some (r', effects)) (hbefore : r.state.halfCloseActive = false)
    (hset : r'.state.halfCloseActive = true) :
    r'.state.halfCloseSleep = p.now + r'.state.halfCloseTimeout := by
  rcases timerCase_of_step hrelay.up.wellFormed hrelay.down.wellFormed hstep with
    ⟨-, -, -, -, hkept⟩ | ⟨-, htimers⟩
  · rw [hkept, hbefore] at hset
    cases hset
  · rcases htimers.halfClose with ⟨-, hkept, -⟩ | ⟨-, -, hsleep, -⟩
    · rw [hkept, hbefore] at hset
      cases hset
    · exact hsleep

theorem HalfCloseInv.step (h : HalfCloseInv cfg trace r) (hrelay : RelayInv cfg trace r)
    (hstep : r.step cfg p = some (r', effects)) :
    HalfCloseInv cfg (trace ++ [(p, effects)]) r' := by
  have hrelay' := hrelay.step hstep
  obtain ⟨hrunning, hcase⟩ := RelayFuture.step_cases hstep
  obtain ⟨hup, hdown⟩ := directionFlags_step hcase h.up h.down
  have hkept := isDrained_step hcase
  rw [← drained_iff hrelay h.up h.down, ← drained_iff hrelay' hup hdown] at hkept
  refine ⟨hup, hdown, ?_, ?_, ?_, ?_⟩
  · intro hpending hdrained
    rcases halfClose_cases hcase with ⟨⟨e, herror⟩, -⟩ | ⟨hactive, -, hnot, -⟩
    · rw [hpending] at herror
      cases herror
    · rw [drained_iff hrelay' hup hdown] at hdrained
      have harms := arms_of_drained hrelay'.up.wellFormed hrelay'.down.wellFormed hdrained
        (hnot hpending)
      rw [hactive, Bool.or_assoc, Bool.or_eq_true, Bool.or_eq_true]
      exact .inr harms
  · intro hset
    rcases halfClose_cases hcase with ⟨-, hactive, htimeout⟩ | ⟨hactive, htimeout, -, -⟩
    · rw [hactive] at hset
      rw [htimeout]
      exact ⟨hkept (h.active hset).1, (h.active hset).2.snoc _⟩
    · by_cases hbefore : r.state.halfCloseActive = true
      · rw [if_pos hbefore] at htimeout
        rw [htimeout]
        exact ⟨hkept (h.active hbefore).1, (h.active hbefore).2.snoc _⟩
      · rw [if_neg hbefore] at htimeout
        have hfirst : ¬ Drained trace := fun hdrained => hbefore (h.suspended hrunning hdrained)
        rw [hactive] at hset
        simp only [hbefore, Bool.false_or, Bool.or_eq_true] at hset
        have hdrained : Drained (trace ++ [(p, effects)]) := by
          rw [drained_iff hrelay' hup hdown]
          exact hset.imp (fun h => (Bool.and_eq_true_iff.mp h).1)
            fun h => (Bool.and_eq_true_iff.mp h).1
        refine ⟨hdrained, trace, p, effects, [], rfl, hfirst, hdrained, ?_⟩
        rw [window_eq hrelay' hup hdown, htimeout]
        split
        · rfl
        · rename_i hother
          rw [if_pos (hset.resolve_left hother)]
  · intro before q qeffects hsplit hnot hset
    obtain ⟨rfl, hlast⟩ := List.append_inj' hsplit rfl
    cases hlast
    refine halfCloseSleep_of_armed hrelay hstep ?_ hset
    rw [← Bool.not_eq_true]
    intro hbefore
    exact hnot (h.active hbefore).1
  · rcases halfClose_cases hcase with ⟨⟨e, herror⟩, -⟩ | ⟨-, -, -, hexpired⟩
    · simp [herror]
    · exact hexpired

/-- The half-close window is armed exactly while some direction is drained, with the
length that was due when that happened first; it starts at the poll that armed it, and
only then can it run out. -/
theorem half_close_window {now : Nat} {polls : List PollCalls}
    (hrun : copyBidirectionalWithStats cfg now polls = some (r, trace)) :
    (r.returned = none → (r.state.halfCloseActive = true ↔ Drained trace)) ∧
      (r.state.halfCloseActive = true → ArmedWith cfg trace r.state.halfCloseTimeout) ∧
      (∀ before p effects, trace = before ++ [(p, effects)] → ¬ Drained before →
        r.state.halfCloseActive = true →
          r.state.halfCloseSleep = p.now + r.state.halfCloseTimeout) ∧
      ∀ result, r.returned = some (.ok result) → result.termination = .halfCloseTimeout →
        Drained trace := by
  have hinv : RelayInv cfg trace r ∧ HalfCloseInv cfg trace r := by
    refine StepMachine.run_induction (P := fun trace r => RelayInv cfg trace r ∧
      HalfCloseInv cfg trace r) (run_of_copyBidirectionalWithStats hrun)
      ⟨relayInv_start cfg now, halfCloseInv_start cfg now⟩ ?_
    rintro trace r p r' effects ⟨hrelay, hhalf⟩ hstep
    exact ⟨hrelay.step hstep, hhalf.step hrelay hstep⟩
  obtain ⟨-, hhalf⟩ := hinv
  refine ⟨fun hpending => ⟨fun h => (hhalf.active h).1, hhalf.suspended hpending⟩,
    fun h => (hhalf.active h).2, hhalf.arming, ?_⟩
  intro result hresult hexpired
  exact (hhalf.active (hhalf.expired result hresult hexpired)).1

/-- The client closes and the shutdown of the remote's writer hangs: the window for
the downlink runs out. -/
theorem half_close_window_hanging :
    let up : List IoCall := [.pollFlush (.ready (.ok ())), .pollRead 4 (.ready (.ok [])),
      .pollFlush (.ready (.ok ())), .pollShutdown .pending]
    let down : List IoCall := [.pollFlush .pending, .pollRead 4 .pending]
    ∃ r trace, copyBidirectionalWithStats ⟨30, 2, 5, 4, none⟩ 0
        [⟨0, up, down⟩, ⟨5, [.pollFlush .pending, .pollShutdown .pending], down⟩] =
          some (r, trace) ∧
      r.returned = some (.ok ⟨0, 0, .halfCloseTimeout, true, false⟩) ∧
      ArmedWith ⟨30, 2, 5, 4, none⟩ trace 5 ∧ Drained trace := by
  intro up down
  obtain ⟨r, trace, hrun, hactive, htimeout, hreturned⟩ : ∃ r trace,
      copyBidirectionalWithStats ⟨30, 2, 5, 4, none⟩ 0
        [⟨0, up, down⟩, ⟨5, [.pollFlush .pending, .pollShutdown .pending], down⟩] =
          some (r, trace) ∧ r.state.halfCloseActive = true ∧ r.state.halfCloseTimeout = 5 ∧
      r.returned = some (.ok ⟨0, 0, .halfCloseTimeout, true, false⟩) :=
    ⟨_, _, rfl, rfl, rfl, rfl⟩
  obtain ⟨-, harmed, -, hexpired⟩ := half_close_window hrun
  rw [htimeout] at harmed
  exact ⟨r, trace, hrun, hreturned, harmed hactive, hexpired _ hreturned rfl⟩

end Run

end TrojanServer.RelayHalfClose
