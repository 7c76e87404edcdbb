import TrojanServer.RelayHalfClose

namespace TrojanServer.PollCopy.DirectionalBuffer

open TrojanServer.AsyncIo

/-- The calls end with a flush that did not fail: what was written is either on the wire, or its
flush has registered the task. -/
def FlushedLast (calls : List IoCall) : Prop :=
  ∃ before result, calls = before ++ [.pollFlush result] ∧
    (result = .pending ∨ result = .ready (.ok ()))

/-- What a direction that is not done waits for after its poll. -/
inductive Blocked (d : DirectionalBuffer) (calls : List IoCall) : Prop
  /-- the writer, with bytes in the buffer; the reader may have been probed since -/
  | write {before probe : List IoCall} {slice more : List UInt8}
      (hcalls : calls = before ++ .pollWrite slice .pending :: probe)
      (hprobe : probe.length ≤ 1) (hslice : slice ≠ []) (hunwritten : d.unwritten = slice ++ more)
  /-- the writer's shutdown, once the reader has ended and the buffer is empty -/
  | shutdown {before : List IoCall} (hcalls : calls = before ++ [.pollShutdown .pending])
      (hflushed : FlushedLast before) (hdrained : d.isDrained = true)
  /-- the reader, with the whole buffer free -/
  | read {before : List IoCall} (hcalls : calls = before ++ [.pollRead d.buf.length .pending])
      (hflushed : FlushedLast before) (hempty : d.unwritten = []) (hopen : d.readDone = false)

/-- What the poll has just done when it gets to a call. -/
def Led (d : DirectionalBuffer) (before : List IoCall) : CopyPoint → Prop
  | .probe => d.pos < d.cap ∧ ∃ earlier, before = earlier ++ [.pollWrite d.unwritten .pending]
  | .shutdown | .read => FlushedLast before
  | .write | .flush => True

variable {d d' : DirectionalBuffer} {point point' : CopyPoint} {c : IoCall}
  {before calls : List IoCall}

theorem unwritten_ne_nil (hwf : d.WellFormed) (h : d.pos < d.cap) : d.unwritten ≠ [] := by
  apply List.ne_nil_of_length_pos
  rw [unwritten_length hwf.cap_le_length]
  omega

theorem led_loopHead (d : DirectionalBuffer) (before : List IoCall) :
    d.Led before d.loopHead := by
  unfold loopHead
  split <;> trivial

theorem led_afterFlush (d' : DirectionalBuffer) (h : FlushedLast before) :
    d'.Led before d.afterFlush := by
  unfold afterFlush
  split <;> exact h

theorem CopyCase.led (h : CopyCase d point c (.call d' point')) (hloc : d.Located point)
    (before : List IoCall) : d'.Led (before ++ [c]) point' := by
  cases h with
  | wrote hpos hle => exact led_loopHead _ _
  | writeProbes hread hroom => exact ⟨hloc, before, rfl⟩
  | flushed => exact led_afterFlush _ ⟨before, _, rfl, .inr rfl⟩
  | flushPending => exact led_afterFlush _ ⟨before, _, rfl, .inl rfl⟩
  | readEof => exact led_loopHead _ _
  | read hne hle => exact led_loopHead _ _

/-- A probe reads behind the bytes of the stalled write, which therefore stay the next ones. -/
theorem blocked_of_probe (hwf : d.WellFormed) (hled : d.Led before .probe)
    {more : List UInt8} (hunwritten : d'.unwritten = d.unwritten ++ more) :
    d'.Blocked (before ++ [c]) := by
  obtain ⟨hlt, earlier, rfl⟩ := hled
  have hcalls : earlier ++ [.pollWrite d.unwritten .pending] ++ [c] =
      earlier ++ .pollWrite d.unwritten .pending :: [c] := by
    simp
  exact .write hcalls (Nat.le_refl 1) (unwritten_ne_nil hwf hlt) hunwritten

theorem CopyCase.blocked (h : CopyCase d point c (.done d' .pending)) (hwf : d.WellFormed)
    (hloc : d.Located point) (hled : d.Led before point) : d'.Blocked (before ++ [c]) := by
  cases h with
  | writeStalled hfull =>
      exact .write rfl (Nat.zero_le 1) (unwritten_ne_nil hwf hloc) (List.append_nil _).symm
  | probedEof => exact blocked_of_probe hwf hled (List.append_nil _).symm
  | probed hne hle => exact blocked_of_probe hwf hled (unwritten_probed hwf _)
  | probePending => exact blocked_of_probe hwf hled (List.append_nil _).symm
  | shutdownPending =>
      refine .shutdown rfl hled ?_
      simp [isDrained, hloc.2, hloc.1]
  | readPending => exact .read rfl hled (unwritten_eq_nil hloc.1) hloc.2

theorem CopyRun.blocked (h : CopyRun d point calls d' .pending) (hwf : d.WellFormed)
    (hloc : d.Located point) (hled : d.Led before point) : d'.Blocked (before ++ calls) := by
  generalize hresult : (Poll.pending : Poll (Except IoError Unit)) = result at h
  induction h generalizing before with
  | last hcase =>
      subst hresult
      exact hcase.blocked hwf hloc hled
  | @more _ _ _ _ _ c calls _ hcase _ ih =>
      have hrest := ih (hcase.spec hwf hloc).wellFormed (hcase.located hwf hloc)
        (hcase.led hloc before) hresult
      simpa using hrest

theorem CopyRun.isDone (h : CopyRun d point calls d' (.ready (.ok ()))) : d'.isDone = true := by
  generalize hresult : (Poll.ready (.ok ()) : Poll (Except IoError Unit)) = result at h
  induction h with
  | last hcase =>
      subst hresult
      cases hcase
      rfl
  | more _ _ ih => exact ih hresult

end TrojanServer.PollCopy.DirectionalBuffer

namespace TrojanServer.Relay

open TrojanServer.AsyncIo
open TrojanServer.PollCopy
open TrojanServer.PollCopy.DirectionalBuffer
open TrojanServer.RelayIntegrity
open TrojanServer.RelayHalfClose

theorem blocked_of_pollDirection {d d' : DirectionalBuffer} {calls : List IoCall}
    (h : pollDirection d calls = some (d', none)) (hwf : d.WellFormed)
    (hopen : d'.isDone = false) : d'.Blocked calls := by
  unfold pollDirection at h
  split at h
  · rename_i hdone
    have hdone : d.shutdownDone = false := by simpa [isDone] using hdone
    have hwf' : { d with flushOk := false }.WellFormed :=
      ⟨hwf.pos_le_cap, hwf.cap_le_length, hwf.done_drained⟩
    split at h
    · cases h
    · cases h
    · rename_i d₁ result hresult hpoll
      cases h
      simp only [pollCopy, hdone, Bool.false_eq_true, if_false] at hpoll
      have hrun := copyRun_of_pollCopyFrom hpoll
      rw [hdone] at hwf'
      rcases result with (e | ⟨⟩) | _
      · exact absurd rfl (hresult e)
      · rw [hrun.isDone] at hopen
        cases hopen
      · exact hrun.blocked hwf' (located_loopHead hwf'.pos_le_cap) (led_loopHead _ [])
  · rename_i hdone
    split at h
    · cases h
      rw [hopen] at hdone
      exact absurd rfl hdone
    · cases h

/-- What a suspended relay is registered with: the call each open direction is blocked on, the
idle timer, and from the first drained direction on the half-close timer. -/
structure Awaiting (s : RelayState) (p : PollCalls) : Prop where
  unfinished : s.aToB.isDone = false ∨ s.bToA.isDone = false
  up : s.aToB.isDone = false → s.aToB.Blocked p.up
  down : s.bToA.isDone = false → s.bToA.Blocked p.down
  idle : p.now < s.idleSleep
  halfClose : s.aToB.isDrained = true ∨ s.bToA.isDrained = true →
    s.halfCloseActive = true ∧ p.now < s.halfCloseSleep

theorem of_checkTermination_pending {now : Nat} {s s' : RelayState}
    (h : checkTermination now s = (s', .pending)) :
    (s.aToB.isDone = false ∨ s.bToA.isDone = false) ∧
      (s.halfCloseActive = true → now < s.halfCloseSleep) ∧ now < s.idleSleep := by
  unfold checkTermination at h
  split at h
  · cases h
  · rename_i hdone
    split at h
    · cases h
    · rename_i hhalf
      split at h
      · cases h
      · rename_i hidle
        refine ⟨?_, ?_, by omega⟩
        · rw [Bool.not_eq_true, Bool.and_eq_false_iff] at hdone
          exact hdone
        · intro hactive
          simpa [hactive] using hhalf

theorem awaiting_of_step {cfg : RelayConfig} {r r' : RelayFuture} {p : PollCalls}
    {effects : List Effect} (hstep : r.step cfg p = some (r', effects))
    (hlive : r'.returned = none) (hup : r.state.aToB.WellFormed)
    (hdown : r.state.bToA.WellFormed) : Awaiting r'.state p := by
  obtain ⟨-, hcase⟩ := RelayFuture.step_cases hstep
  cases hcase with
  | @suspended aToB bToA hpolledUp hpolledDown hend =>
      obtain ⟨hunfinished, hhalf, hidle⟩ := of_checkTermination_pending hend
      simp only [settle_buffers] at hunfinished
      refine ⟨?_, ?_, ?_, hidle, ?_⟩
      · simpa using hunfinished
      · simpa using blocked_of_pollDirection hpolledUp hup
      · simpa using blocked_of_pollDirection hpolledDown hdown
      · intro hdrained
        simp only [settle_buffers] at hdrained
        have hactive : (settle cfg p.now r.state aToB bToA).1.halfCloseActive = true := by
          have harms := arms_of_drained (pollDirection_spec hpolledUp hup).wellFormed
            (pollDirection_spec hpolledDown hdown).wellFormed hdrained
            (fun hdone => by simp [hdone.1, hdone.2] at hunfinished)
          rw [(settle_halfClose cfg p.now r.state aToB bToA).1, Bool.or_assoc, Bool.or_eq_true,
            Bool.or_eq_true]
          exact .inr harms
        exact ⟨hactive, hhalf hactive⟩
  | _ => cases hlive

/-- No wake-up is lost: whenever the relay suspends, each of its directions that is not done was
refused the very call it needs next in that poll, after flushing what it had written, and its
timers are armed for later, the half-close timer as soon as one direction is drained. -/
theorem suspended_relay_is_woken {cfg : RelayConfig} {now : Nat} {polls : List PollCalls}
    {r : RelayFuture} {trace : Trace}
    (hrun : copyBidirectionalWithStats cfg now polls = some (r, trace))
    (hlive : r.returned = none) {p : PollCalls} (hlast : polls.getLast? = some p) :
    Awaiting r.state p := by
  have hrun := run_of_copyBidirectionalWithStats hrun
  rw [← StepMachine.map_fst_of_run hrun] at hlast
  have hinv : RelayInv cfg trace r ∧ (r.returned = none →
      ∀ p, (trace.map Prod.fst).getLast? = some p → Awaiting r.state p) := by
    refine StepMachine.run_induction (P := fun trace r => RelayInv cfg trace r ∧
      (r.returned = none → ∀ p, (trace.map Prod.fst).getLast? = some p → Awaiting r.state p))
      hrun ⟨relayInv_start cfg now, by simp⟩ ?_
    rintro trace r p r' effects ⟨hinv, -⟩ hstep
    refine ⟨hinv.step hstep, ?_⟩
    intro hlive p' hp'
    simp only [List.map_append, List.map_cons, List.map_nil, List.getLast?_concat,
      Option.some.injEq] at hp'
    subst hp'
    exact awaiting_of_step hstep hlive hinv.up.wellFormed hinv.down.wellFormed
  exact hinv.2 hlive p hlast

/-- The first poll of the stalled relay leaves its uplink blocked on the remote's writer. -/
theorem suspended_relay_is_woken_stalled :
    ∃ p r trace, stalledPolls.head? = some p ∧
      copyBidirectionalWithStats ⟨30, 5, 5, 4, none⟩ 0 [p] = some (r, trace) ∧
      r.state.aToB.Blocked p.up ∧ p.up[2]? = some (.pollWrite [7, 8] .pending) := by
  obtain ⟨p, r, trace, hfirst, hrun, hlive, hopen, hwrite⟩ : ∃ p r trace,
      stalledPolls.head? = some p ∧
      copyBidirectionalWithStats ⟨30, 5, 5, 4, none⟩ 0 [p] = some (r, trace) ∧
      r.returned = none ∧ r.state.aToB.isDone = false ∧
      p.up[2]? = some (.pollWrite [7, 8] .pending) :=
    ⟨_, _, _, rfl, rfl, rfl, rfl, rfl⟩
  exact ⟨p, r, trace, hfirst, hrun, (suspended_relay_is_woken hrun hlive rfl).up hopen, hwrite⟩

end TrojanServer.Relay
