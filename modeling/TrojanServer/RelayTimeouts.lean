import TrojanServer.RelayActivity

namespace TrojanServer.RelayTimeouts

open TrojanServer.AsyncIo
open TrojanServer.PollCopy
open TrojanServer.PollCopy.DirectionalBuffer
open TrojanServer.Relay
open TrojanServer.RelayIntegrity
open TrojanServer.RelayActivity

/-- After these calls the writer holds bytes it accepted since its last
successful flush. -/
def unflushed (calls : List IoCall) : Bool :=
  calls.foldl (fun held c => !c.isFlushed && (held || decide (c.accepted ≠ []))) false

def confirmsDelivery : List IoCall → List IoCall → Bool
  | _, [] => false
  | before, c :: calls =>
      (unflushed before && c.isFlushed) || confirmsDelivery (before ++ [c]) calls

def deliveryPoll (before : Trace) (p : PollCalls) : Bool :=
  confirmsDelivery (upCalls before) p.up || confirmsDelivery (downCalls before) p.down

def Armed (window : Nat) (trace : Trace) : Prop :=
  ∃ p effects, (p, effects) ∈ trace ∧ Effect.armHalfClose (p.now + window) ∈ effects

def ClockMonotone (trace : Trace) : Prop :=
  trace.Pairwise fun event event' => event.1.now ≤ event'.1.now

def endTime (trace : Trace) : Option Nat := trace.getLast?.map fun event => event.1.now

def TimedOut (r : RelayFuture) (trace : Trace) (termination : RelayTermination) (t : Nat) :
    Prop :=
  (∃ result, r.returned = some (.ok result) ∧ result.termination = termination) ∧
    endTime trace = some t

/-- A relay that timed out saw no delivery within the window that ran out. -/
structure NoTimeoutDuringDelivery (cfg : RelayConfig) (r : RelayFuture) (trace : Trace) :
    Prop where
  idle : ∀ t, TimedOut r trace .idleTimeout t →
    ∀ before p effects after, trace = before ++ (p, effects) :: after →
      deliveryPoll before p = true → p.now + cfg.idleTimeout ≤ t
  halfClose : ∀ t, TimedOut r trace .halfCloseTimeout t →
    ∀ before p effects after window, trace = before ++ (p, effects) :: after →
      Armed window (before ++ [(p, effects)]) →
      deliveryPoll before p = true → p.now + window ≤ t

def Live (r : RelayFuture) : Prop := ∀ e, r.returned ≠ some (.error e)

structure LiveStep (cfg : RelayConfig) (s : RelayState) (p : PollCalls) (r : RelayFuture)
    (effects : List Effect) : Prop where
  timers : TimerStep cfg s p r.state effects
  idleEnd : ∀ result, r.returned = some (.ok result) → result.termination = .idleTimeout →
    r.state.idleSleep ≤ p.now
  halfCloseEnd : ∀ result, r.returned = some (.ok result) →
    result.termination = .halfCloseTimeout → r.state.halfCloseSleep ≤ p.now

theorem expired_of_ended {now : Nat} {s s' : RelayState}
    (h : checkTermination now s = (s', .ready (.ok ()))) :
    (s'.termination = .idleTimeout → s'.idleSleep ≤ now) ∧
      (s'.termination = .halfCloseTimeout → s'.halfCloseSleep ≤ now) := by
  rcases checkTermination_cases now s with
    ⟨-, -, hend⟩ | ⟨-, hexpired, hend⟩ | ⟨hexpired, hend⟩ | hend
  all_goals
    rw [hend] at h
    cases h
  · exact ⟨nofun, nofun⟩
  · exact ⟨nofun, fun _ => hexpired⟩
  · exact ⟨fun _ => hexpired, nofun⟩

theorem expired_of_step {cfg : RelayConfig} {r r' : RelayFuture} {p : PollCalls}
    {effects : List Effect} {result : CopyResult} (hstep : r.step cfg p = some (r', effects))
    (hresult : r'.returned = some (.ok result)) :
    (result.termination = .idleTimeout → r'.state.idleSleep ≤ p.now) ∧
      (result.termination = .halfCloseTimeout → r'.state.halfCloseSleep ≤ p.now) := by
  obtain ⟨-, hcase⟩ := RelayFuture.step_cases hstep
  cases hcase with
  | upFailed hup hdown => simp at hresult
  | downFailed hup hdown => simp at hresult
  | suspended hup hdown hend => simp at hresult
  | ended hup hdown hend =>
      cases hresult
      exact expired_of_ended hend

theorem liveStep_of_step {cfg : RelayConfig} {trace : Trace} {r r' : RelayFuture}
    {p : PollCalls} {effects : List Effect} (hinv : RelayInv cfg trace r)
    (hstep : r.step cfg p = some (r', effects)) (hlive : Live r') :
    LiveStep cfg r.state p r' effects := by
  rcases timerCase_of_step hinv.up.wellFormed hinv.down.wellFormed hstep with
    ⟨-, ⟨e, he⟩, -⟩ | ⟨-, htimers⟩
  · exact absurd he (hlive e)
  · refine ⟨htimers, ?_, ?_⟩
    · intro result hresult htermination
      exact (expired_of_step hstep hresult).1 htermination
    · intro result hresult htermination
      exact (expired_of_step hstep hresult).2 htermination

/-- The deadlines of a relay that is live: no poll that counted as activity lies
within the windows they close. -/
structure TimerInv (cfg : RelayConfig) (trace : Trace) (r : RelayFuture) : Prop where
  armed : ∀ window, Armed window trace →
    r.state.halfCloseActive = true ∧ r.state.halfCloseTimeout = window
  idle : ∀ p effects, (p, effects) ∈ trace → activePoll p = true →
    p.now + cfg.idleTimeout ≤ r.state.idleSleep
  halfClose : ∀ before p effects after window, trace = before ++ (p, effects) :: after →
    Armed window (before ++ [(p, effects)]) → activePoll p = true →
      p.now + window ≤ r.state.halfCloseSleep
  idleEnd : ∀ t, TimedOut r trace .idleTimeout t → r.state.idleSleep ≤ t
  halfCloseEnd : ∀ t, TimedOut r trace .halfCloseTimeout t → r.state.halfCloseSleep ≤ t

theorem timerInv_start (cfg : RelayConfig) (now : Nat) :
    TimerInv cfg [] (RelayFuture.start cfg now) where
  armed := by simp [Armed]
  idle := by simp
  halfClose := by simp
  idleEnd := by simp [TimedOut, endTime]
  halfCloseEnd := by simp [TimedOut, endTime]

theorem Armed.mono {window : Nat} {trace trace' : Trace} (h : Armed window trace)
    (hsub : trace ⊆ trace') : Armed window trace' := by
  obtain ⟨p, effects, hmem, harm⟩ := h
  exact ⟨p, effects, hsub hmem, harm⟩

theorem armed_snoc {window : Nat} {trace : Trace} {p : PollCalls} {effects : List Effect} :
    Armed window (trace ++ [(p, effects)]) ↔
      Armed window trace ∨ Effect.armHalfClose (p.now + window) ∈ effects := by
  constructor
  · rintro ⟨q, qeffects, hmem, harm⟩
    rcases List.mem_append.mp hmem with hmem | hmem
    · exact .inl ⟨q, qeffects, hmem, harm⟩
    · cases List.mem_singleton.mp hmem
      exact .inr harm
  · rintro (h | harm)
    · exact h.mono (List.subset_append_left _ _)
    · exact ⟨p, effects, by simp, harm⟩

@[simp] theorem endTime_snoc (trace : Trace) (p : PollCalls) (effects : List Effect) :
    endTime (trace ++ [(p, effects)]) = some p.now := by
  simp [endTime]

theorem TimerInv.armed_step {cfg : RelayConfig} {trace : Trace} {r r' : RelayFuture}
    {p : PollCalls} {effects : List Effect} (h : TimerInv cfg trace r)
    (hstep : TimerStep cfg r.state p r'.state effects) (window : Nat)
    (harmed : Armed window (trace ++ [(p, effects)])) :
    r'.state.halfCloseActive = true ∧ r'.state.halfCloseTimeout = window := by
  rcases hstep.halfClose with ⟨hnone, hactive, htimeout, -⟩ | ⟨hinactive, hactive, -, harm⟩
  · rcases armed_snoc.mp harmed with hold | hnew
    · rw [hactive, htimeout]
      exact h.armed window hold
    · exact absurd hnew (hnone _)
  · refine ⟨hactive, ?_⟩
    rcases armed_snoc.mp harmed with hold | hnew
    · exact absurd (h.armed window hold).1 (by simp [hinactive])
    · have := harm _ hnew
      omega

theorem TimerInv.idle_step {cfg : RelayConfig} {trace : Trace} {r r' : RelayFuture}
    {p : PollCalls} {effects : List Effect} (h : TimerInv cfg trace r)
    (hstep : TimerStep cfg r.state p r'.state effects)
    (hclock : ∀ event ∈ trace, event.1.now ≤ p.now) :
    ∀ q qeffects, (q, qeffects) ∈ trace ++ [(p, effects)] → activePoll q = true →
      q.now + cfg.idleTimeout ≤ r'.state.idleSleep := by
  intro q qeffects hmem hactive
  rw [hstep.idleSleep]
  rcases List.mem_append.mp hmem with hmem | hmem
  · split
    · have := hclock _ hmem
      simp only at this
      omega
    · exact h.idle q qeffects hmem hactive
  · cases List.mem_singleton.mp hmem
    simp [hactive]

theorem TimerInv.halfClose_step {cfg : RelayConfig} {trace : Trace} {r r' : RelayFuture}
    {p : PollCalls} {effects : List Effect} (h : TimerInv cfg trace r)
    (hstep : TimerStep cfg r.state p r'.state effects)
    (hclock : ∀ event ∈ trace, event.1.now ≤ p.now) :
    ∀ before q qeffects after window,
      trace ++ [(p, effects)] = before ++ (q, qeffects) :: after →
      Armed window (before ++ [(q, qeffects)]) → activePoll q = true →
        q.now + window ≤ r'.state.halfCloseSleep := by
  intro before q qeffects after window hsplit harmed hactive
  have hwindow := (h.armed_step hstep window (harmed.mono (by
    rw [hsplit, List.append_cons before _ after]
    exact List.subset_append_left _ _))).2
  rcases StepMachine.snoc_split hsplit with ⟨rfl, heq, rfl⟩ | ⟨after', rfl, hold⟩
  · cases heq
    rcases hstep.halfClose with ⟨hnone, -, htimeout, hsleep⟩ | ⟨-, -, hsleep, -⟩
    · have harmedBefore : Armed window before := by
        rcases armed_snoc.mp harmed with hbefore | hnew
        · exact hbefore
        · exact absurd hnew (hnone _)
      rw [hsleep, hactive, (h.armed window harmedBefore).1, ← hwindow, htimeout]
      simp
    · omega
  · have harmedTrace : Armed window trace := harmed.mono (by
      rw [hold, List.append_cons before _ after']
      exact List.subset_append_left _ _)
    have hle : q.now ≤ p.now := hclock (q, qeffects) (by rw [hold]; simp)
    have hprevious := h.halfClose before q qeffects after' window hold harmed hactive
    have htimeout' := (h.armed window harmedTrace).2
    rcases hstep.halfClose with ⟨-, -, -, hsleep⟩ | ⟨-, -, hsleep, -⟩
    · rw [hsleep]
      split <;> omega
    · omega

theorem TimerInv.step {cfg : RelayConfig} {trace : Trace} {r r' : RelayFuture}
    {p : PollCalls} {effects : List Effect} (h : TimerInv cfg trace r)
    (hstep : LiveStep cfg r.state p r' effects)
    (hclock : ∀ event ∈ trace, event.1.now ≤ p.now) :
    TimerInv cfg (trace ++ [(p, effects)]) r' where
  armed := h.armed_step hstep.timers
  idle := h.idle_step hstep.timers hclock
  halfClose := h.halfClose_step hstep.timers hclock
  idleEnd := by
    rintro t ⟨⟨result, hresult, htermination⟩, hend⟩
    have hle := hstep.idleEnd result hresult htermination
    simp only [endTime_snoc, Option.some.injEq] at hend
    omega
  halfCloseEnd := by
    rintro t ⟨⟨result, hresult, htermination⟩, hend⟩
    have hle := hstep.halfCloseEnd result hresult htermination
    simp only [endTime_snoc, Option.some.injEq] at hend
    omega

theorem timerInv_run {cfg : RelayConfig} {now : Nat} {polls : List PollCalls}
    {r : RelayFuture} {trace : Trace}
    (hrun : copyBidirectionalWithStats cfg now polls = some (r, trace))
    (hclock : ClockMonotone trace) (hlive : Live r) : TimerInv cfg trace r := by
  suffices h : RelayInv cfg trace r ∧
      (ClockMonotone trace → Live r → TimerInv cfg trace r) from h.2 hclock hlive
  refine StepMachine.run_induction (P := fun trace r => RelayInv cfg trace r ∧
    (ClockMonotone trace → Live r → TimerInv cfg trace r))
    (run_of_copyBidirectionalWithStats hrun) ?_ ?_
  · exact ⟨relayInv_start cfg now, fun _ _ => timerInv_start cfg now⟩
  · rintro trace r p r' effects ⟨hinv, htimers⟩ hstep
    refine ⟨hinv.step hstep, ?_⟩
    intro hclock hlive
    obtain ⟨hbefore, -, hlast⟩ := List.pairwise_append.mp hclock
    have hrunning := (RelayFuture.step_cases hstep).1
    refine (htimers hbefore (by simp [Live, hrunning])).step
      (liveStep_of_step hinv hstep hlive) ?_
    intro event hmem
    exact hlast event hmem (p, effects) (by simp)

/-- The poll in which a flush confirms delivery is one the relay counts. -/
def CountedDelivery (before : Trace) (p : PollCalls) : Prop :=
  deliveryPoll before p = true → activePoll p = true

/-- A relay whose confirming flushes all fall into polls it counts does not time
out while data is being delivered. -/
theorem no_timeout_during_delivery (cfg : RelayConfig) (now : Nat) (polls : List PollCalls)
    (r : RelayFuture) (trace : Trace)
    (hrun : copyBidirectionalWithStats cfg now polls = some (r, trace))
    (hclock : ClockMonotone trace)
    (hcounted : ∀ before p effects after, trace = before ++ (p, effects) :: after →
      CountedDelivery before p) :
    NoTimeoutDuringDelivery cfg r trace := by
  have hinv : ∀ termination t, TimedOut r trace termination t → TimerInv cfg trace r := by
    rintro termination t ⟨⟨result, hresult, -⟩, -⟩
    exact timerInv_run hrun hclock (by simp [Live, hresult])
  constructor
  · intro t hend before p effects after hsplit hdelivery
    have htimers := hinv _ t hend
    have hactive := hcounted before p effects after hsplit hdelivery
    exact Nat.le_trans (htimers.idle p effects (by simp [hsplit]) hactive)
      (htimers.idleEnd t hend)
  · intro t hend before p effects after window hsplit harmed hdelivery
    have htimers := hinv _ t hend
    have hactive := hcounted before p effects after hsplit hdelivery
    exact Nat.le_trans
      (htimers.halfClose before p effects after window hsplit harmed hactive)
      (htimers.halfCloseEnd t hend)

/-- A byte is written at time 0, its flush succeeds at time 4, and at time 5
nothing happens. -/
def lateFlush : List PollCalls :=
  [{ now := 0
     up :=
      [.pollFlush .pending,
       .pollRead 4 (.ready (.ok [9])),
       .pollWrite [9] (.ready (.ok 1)),
       .pollFlush .pending,
       .pollRead 4 .pending]
     down := [.pollFlush (.ready (.ok ())), .pollRead 4 .pending] },
   quietPoll 4,
   quietPoll 5]

def lateFlushTrace : Trace := lateFlush.map fun p => (p, [])

/-- With an idle timeout of 5 the relay gives up one time unit after the
delivery. -/
theorem late_flush_times_out :
    ∃ r, copyBidirectionalWithStats ⟨5, 2, 2, 4, none⟩ 0 lateFlush = some (r, lateFlushTrace) ∧
      ClockMonotone lateFlushTrace ∧
      r.returned = some (.ok ⟨1, 0, .idleTimeout, false, false⟩) ∧
      ¬ NoTimeoutDuringDelivery ⟨5, 2, 2, 4, none⟩ r lateFlushTrace := by
  refine ⟨_, rfl, ?_, rfl, ?_⟩
  · unfold ClockMonotone
    decide
  · intro h
    have hwindow := h.idle 5 ⟨⟨_, rfl, rfl⟩, rfl⟩ (lateFlushTrace.take 1) _ _ _ rfl (by decide)
    exact absurd hwindow (by decide)

def promptFlush : List PollCalls :=
  [quietPoll 0,
   { now := 4
     up :=
      [.pollFlush .pending,
       .pollRead 4 (.ready (.ok [9])),
       .pollWrite [9] (.ready (.ok 1)),
       .pollFlush (.ready (.ok ())),
       .pollRead 4 .pending]
     down := [.pollFlush (.ready (.ok ())), .pollRead 4 .pending] },
   quietPoll 9]

theorem prompt_flush_keeps_window :
    ∃ r trace, copyBidirectionalWithStats ⟨5, 2, 2, 4, none⟩ 0 promptFlush = some (r, trace) ∧
      TimedOut r trace .idleTimeout 9 ∧
      NoTimeoutDuringDelivery ⟨5, 2, 2, 4, none⟩ r trace := by
  refine ⟨_, _, rfl, ⟨⟨_, rfl, rfl⟩, rfl⟩, ?_⟩
  refine no_timeout_during_delivery ⟨5, 2, 2, 4, none⟩ 0 promptFlush _ _ rfl ?_ ?_
  · simp [ClockMonotone, quietPoll]
  · intro before p effects after hsplit
    rcases before with _ | ⟨first, _ | ⟨second, _ | ⟨third, before⟩⟩⟩
    · cases hsplit
      exact fun h => absurd h (by decide)
    · cases hsplit
      exact fun _ => rfl
    · cases hsplit
      exact fun h => absurd h (by decide)
    · simp at hsplit

end TrojanServer.RelayTimeouts
