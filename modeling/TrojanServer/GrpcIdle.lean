import Mathlib.Data.List.Chain
import TrojanServer.GrpcRun
import TrojanServer.Streaks

namespace TrojanServer.GrpcRun

open TrojanServer.StepMachine
open TrojanServer.Streaks

section History

def isTick (input : Nat × LoopEvent) : Bool := decide (input.2 = .idleTick)

def acceptedStreams (h : LoopHistory) : Nat := h.countP fun entry => entry.2 = .spawn

def endedStreams (h : LoopHistory) : Nat := h.countP fun entry => entry.1.2 = .streamEnd

def ticks (h : LoopHistory) : Nat := h.countP fun entry => isTick entry.1

/-- Every stream accepted so far has ended. -/
def NoneActive (h : LoopHistory) : Prop := acceptedStreams h = endedStreams h

/-- Time does not run backwards, and a tick comes at least `period` after the one before. -/
def Paced (period : Nat) (inputs : List (Nat × LoopEvent)) : Prop :=
  inputs.Pairwise (fun input later => input.1 ≤ later.1) ∧
    (inputs.filter isTick).IsChain fun tick next => tick.1 + period ≤ next.1

/-- The history up to a tick: no stream was active at it and at the two ticks before it,
and none was accepted since the earlier of these. -/
def IdleForTwoTicks (h : LoopHistory) : Prop :=
  ∃ before t₁ s₁ t₂ s₂, h = before ++ t₁ :: (s₁ ++ t₂ :: s₂) ∧ isTick t₁.1 = true ∧
    isTick t₂.1 = true ∧ (∀ entry ∈ s₁ ++ s₂, isTick entry.1 = false) ∧
    NoneActive before ∧ NoneActive (before ++ t₁ :: s₁) ∧ NoneActive h ∧
    ∀ entry ∈ t₁ :: (s₁ ++ t₂ :: s₂), entry.2 ≠ .spawn

def IdleTick (h : LoopHistory) (entry : (Nat × LoopEvent) × Outcome) : Prop :=
  isTick entry.1 = true ∧ entry.2 ≠ .spawn ∧ NoneActive h

def NoTickNoStream (entry : (Nat × LoopEvent) × Outcome) : Prop :=
  isTick entry.1 = false ∧ entry.2 ≠ .spawn

variable {h : LoopHistory}

section Snoc

variable (h : LoopHistory) (entry : (Nat × LoopEvent) × Outcome)

@[simp] theorem acceptedStreams_snoc : acceptedStreams (h ++ [entry]) =
    acceptedStreams h + if entry.2 = .spawn then 1 else 0 := by
  simp [acceptedStreams, List.countP_cons]

@[simp] theorem endedStreams_snoc : endedStreams (h ++ [entry]) =
    endedStreams h + if entry.1.2 = .streamEnd then 1 else 0 := by
  simp [endedStreams, List.countP_cons]

@[simp] theorem ticks_snoc : ticks (h ++ [entry]) =
    ticks h + if entry.1.2 = .idleTick then 1 else 0 := by
  simp [ticks, isTick, List.countP_cons]

end Snoc

theorem idleForTwoTicks_of_streak (hnone : NoneActive h)
    (hstreak : Streak IdleTick NoTickNoStream h 2) : IdleForTwoTicks h := by
  obtain ⟨_, t₂, s₂, rfl, ⟨htick₂, hspawn₂, hnone₂⟩, hstreak, hs₂⟩ := streak_succ_iff.mp hstreak
  obtain ⟨before, t₁, s₁, rfl, ⟨htick₁, hspawn₁, hnone₁⟩, -, hs₁⟩ := streak_succ_iff.mp hstreak
  refine ⟨before, t₁, s₁, t₂, s₂, by simp, htick₁, htick₂, ?_, hnone₁, hnone₂, hnone, ?_⟩
  · intro entry hentry
    rcases List.mem_append.mp hentry with hentry | hentry
    · exact (hs₁ entry hentry).1
    · exact (hs₂ entry hentry).1
  · intro entry hentry
    simp only [List.mem_cons, List.mem_append] at hentry
    rcases hentry with rfl | hentry | rfl | hentry
    · exact hspawn₁
    · exact (hs₁ entry hentry).2
    · exact hspawn₂
    · exact (hs₂ entry hentry).2

/-- With no stream active and none accepted, none can end. -/
theorem no_end_of_noneActive {more : LoopHistory} (hnone : NoneActive h)
    (hnone' : NoneActive (h ++ more)) (hspawn : ∀ entry ∈ more, entry.2 ≠ .spawn) :
    ∀ entry ∈ more, entry.1.2 ≠ .streamEnd := by
  have haccepted : acceptedStreams more = 0 := by
    simpa [acceptedStreams, List.countP_eq_zero] using hspawn
  have hended : endedStreams more = 0 := by
    simp only [NoneActive, acceptedStreams, endedStreams, List.countP_append] at *
    omega
  simpa [endedStreams, List.countP_eq_zero] using hended

section Pace

variable {period : Nat} {before between after : List (Nat × LoopEvent)}
  {tick next : Nat × LoopEvent}

theorem Paced.next_tick (hpaced : Paced period (before ++ tick :: (between ++ next :: after)))
    (htick : isTick tick = true) (hnext : isTick next = true)
    (hbetween : ∀ input ∈ between, isTick input = false) : tick.1 + period ≤ next.1 := by
  have hnone : between.filter isTick = [] := by simpa [List.filter_eq_nil_iff] using hbetween
  have hchain := hpaced.2
  simp only [List.filter_append, List.filter_cons, htick, hnext, hnone, if_true,
    List.nil_append] at hchain
  exact (List.isChain_append_cons_cons.mp hchain).2.1

theorem Paced.time_le (hpaced : Paced period (before ++ tick :: after)) {input : Nat × LoopEvent}
    (hinput : input ∈ before) : input.1 ≤ tick.1 :=
  (List.pairwise_append.mp hpaced.1).2.2 input hinput tick (by simp)

end Pace

/-- All streams ended before the first of the two ticks, and the ticks are a period apart. -/
theorem IdleForTwoTicks.ended_before {period : Nat} {tick : (Nat × LoopEvent) × Outcome}
    {after : LoopHistory} (hidle : IdleForTwoTicks h) (htick : isTick tick.1 = true)
    (hpaced : Paced period ((h ++ tick :: after).map Prod.fst)) :
    ∀ time o, ((time, .streamEnd), o) ∈ h → time + 2 * period ≤ tick.1.1 := by
  obtain ⟨before, t₁, s₁, t₂, s₂, rfl, htick₁, htick₂, hnotick, hnone, -, hnone', hspawn⟩ := hidle
  intro time o hmem
  have hbefore : ((time, .streamEnd), o) ∈ before := by
    rcases List.mem_append.mp hmem with hmem | hmem
    · exact hmem
    · exact absurd rfl (no_end_of_noneActive hnone hnone' hspawn _ hmem)
  simp only [List.map_append, List.map_cons, List.append_assoc, List.cons_append] at hpaced
  have hended : time ≤ t₁.1.1 := hpaced.time_le (List.mem_map_of_mem hbefore)
  have hfirst : t₁.1.1 + period ≤ t₂.1.1 := by
    refine hpaced.next_tick htick₁ htick₂ ?_
    intro input hinput
    obtain ⟨entry, hentry, rfl⟩ := List.mem_map.mp hinput
    exact hnotick entry (by simp [hentry])
  have hsecond : t₂.1.1 + period ≤ tick.1.1 := by
    rw [← List.cons_append, ← List.append_assoc] at hpaced
    refine hpaced.next_tick htick₂ htick ?_
    intro input hinput
    obtain ⟨entry, hentry, rfl⟩ := List.mem_map.mp hinput
    exact hnotick entry (by simp [hentry])
  omega

end History

section Run

variable {conn : GrpcConnection} {s s' : Loop} {h : LoopHistory} {time : Nat} {event : LoopEvent}
  {o : Outcome}

structure LoopInv (h : LoopHistory) (s : Loop) : Prop where
  active : s.activeStreams + endedStreams h = acceptedStreams h
  idle : Counts IdleTick NoTickNoStream h s.idleTicks
  unused : acceptedStreams h = 0 → s.idleTicks = ticks h

theorem LoopInv.noneActive_iff (hinv : LoopInv h s) : NoneActive h ↔ s.activeStreams = 0 := by
  have hactive := hinv.active
  unfold NoneActive
  omega

/-- An input that is no tick and starts or ends no stream leaves the counters alone. -/
theorem LoopInv.skip (hinv : LoopInv h s) (hactive : s'.activeStreams = s.activeStreams)
    (hidle : s'.idleTicks = s.idleTicks) (htick : event ≠ .idleTick) (hend : event ≠ .streamEnd)
    (hspawn : o ≠ .spawn) : LoopInv (h ++ [((time, event), o)]) s' := by
  refine ⟨?_, ?_, ?_⟩
  · simpa [hend, hspawn, hactive] using hinv.active
  · rw [hidle]
    exact hinv.idle.gap (by simp [IdleTick, isTick, htick])
      ⟨by simp [isTick, htick], hspawn⟩
  · simpa [htick, hspawn, hidle] using hinv.unused

theorem LoopInv.tick (hinv : LoopInv h s) (hnone : s.activeStreams = 0)
    (hactive : s'.activeStreams = 0) (hidle : s'.idleTicks = s.idleTicks + 1)
    (hspawn : o ≠ .spawn) : LoopInv (h ++ [((time, .idleTick), o)]) s' := by
  refine ⟨?_, ?_, ?_⟩
  · have hactive' := hinv.active
    rw [hnone] at hactive'
    simpa [hspawn, hactive] using hactive'
  · rw [hidle]
    exact hinv.idle.mark ⟨rfl, hspawn, hinv.noneActive_iff.mpr hnone⟩
  · intro haccepted
    have hunused := hinv.unused (by simpa [hspawn] using haccepted)
    simp [hidle, hunused]

theorem LoopInv.step (hinv : LoopInv h s) (hcase : LoopCase conn s event s' o) :
    LoopInv (h ++ [((time, event), o)]) s' := by
  cases hcase with
  | idle hnone _ => exact hinv.tick hnone hnone rfl (by simp)
  | drain hnone _ => exact hinv.tick hnone hnone rfl (by simp)
  | elapsed hnone _ => exact hinv.tick hnone hnone rfl (by simp)
  | accepted _ _ =>
      have hactive := hinv.active
      refine ⟨?_, counts_reset (by simp [IdleTick]) (by simp [NoTickNoStream]), by simp⟩
      simp only [acceptedStreams_snoc, endedStreams_snoc, reduceCtorEq, if_false, if_true]
      omega
  | busy hbusy =>
      have hactive := hinv.active
      refine ⟨?_, counts_reset ?_ (by simp [NoTickNoStream, isTick]), ?_⟩
      · simpa using hactive
      · simp [IdleTick, hinv.noneActive_iff, hbusy]
      · intro haccepted
        have hzero : acceptedStreams h = 0 := by simpa using haccepted
        omega
  | ended hbusy =>
      have hactive := hinv.active
      refine ⟨?_, ?_, ?_⟩
      · simp only [acceptedStreams_snoc, endedStreams_snoc, reduceCtorEq, if_false, if_true]
        omega
      · exact hinv.idle.gap (by simp [IdleTick, isTick]) (by simp [NoTickNoStream, isTick])
      · simpa using hinv.unused
  | _ => exact hinv.skip rfl rfl (by simp) (by simp) (by simp)

theorem loopInv_start (pingPong : Bool) : LoopInv [] (.start pingPong) :=
  ⟨rfl, counts_nil, fun _ => rfl⟩

/-- The connection is drained, or left at a tick, only after two more ticks without a stream. -/
theorem LoopInv.idle_of_outcome (hinv : LoopInv h s) (hcase : LoopCase conn s event s' o)
    (houtcome : o = .gracefulShutdown ∨ event = .idleTick ∧ ∃ result, o = .leave result) :
    event = .idleTick ∧ IdleForTwoTicks h := by
  have hstreak : s.activeStreams = 0 → 2 ≤ s.idleTicks → IdleForTwoTicks h := by
    intro hnone htwo
    exact idleForTwoTicks_of_streak (hinv.noneActive_iff.mpr hnone) ((hinv.idle 2).mpr htwo)
  cases hcase with
  | drain hnone hthird => exact ⟨rfl, hstreak hnone (by omega)⟩
  | elapsed hnone hmore => exact ⟨rfl, hstreak hnone (by omega)⟩
  | _ => simp at houtcome

/-- Without a stream only the number of the tick matters. -/
theorem LoopInv.unused_tick (hinv : LoopInv h s) (hcase : LoopCase conn s .idleTick s' o)
    (haccepted : acceptedStreams h = 0) :
    (ticks h = 2 → o = .gracefulShutdown) ∧ (ticks h = 3 → o = .leave (.ok ())) := by
  have hactive := hinv.active
  have hcount := hinv.unused haccepted
  generalize hevent : LoopEvent.idleTick = event at hcase
  cases hcase with
  | busy hbusy => exact absurd hactive (by omega)
  | idle _ hfew => exact ⟨fun htwo => by omega, fun hthree => by omega⟩
  | drain _ hthird => exact ⟨fun _ => rfl, fun hthree => by omega⟩
  | elapsed _ hmore => exact ⟨fun htwo => by omega, fun _ => rfl⟩
  | _ => cases hevent

end Run

/-- A connection is drained or closed for idleness only at a tick with no stream at it, at the
two ticks before and among them, so at least two periods after the last stream ended; and
without any stream the third tick drains and the fourth closes. -/
theorem idle_drain_not_early {conn : GrpcConnection} {pingPong : Bool}
    {inputs : List (Nat × LoopEvent)} {s : Loop} {trace : LoopHistory}
    (hrun : run conn.step (.start pingPong) inputs = some (s, trace))
    (hpaced : Paced (conn.idleTimeout / 2) inputs) :
    (∀ before time event o after, trace = before ++ ((time, event), o) :: after →
      o = .gracefulShutdown ∨ event = .idleTick ∧ (∃ result, o = .leave result) →
        event = .idleTick ∧ IdleForTwoTicks before ∧
          ∀ ended o', ((ended, .streamEnd), o') ∈ before →
            ended + 2 * (conn.idleTimeout / 2) ≤ time) ∧
      ∀ before time o after, trace = before ++ ((time, .idleTick), o) :: after →
        acceptedStreams before = 0 →
          (ticks before = 2 → o = .gracefulShutdown) ∧
            (ticks before = 3 → o = .leave (.ok ())) := by
  obtain ⟨-, hevents⟩ := run_induction_events (P := LoopInv)
    (Q := fun before input o =>
      (o = .gracefulShutdown ∨ input.2 = .idleTick ∧ (∃ result, o = .leave result) →
        input.2 = .idleTick ∧ IdleForTwoTicks before) ∧
      (input.2 = .idleTick → acceptedStreams before = 0 →
        (ticks before = 2 → o = .gracefulShutdown) ∧ (ticks before = 3 → o = .leave (.ok ()))))
    hrun (along_trivial _ _) (loopInv_start pingPong) (by
      rintro h s ⟨time, event⟩ s' o hinv - hstep
      obtain ⟨-, hcase⟩ := loopCase_of_step hstep
      refine ⟨hinv.step hcase, hinv.idle_of_outcome hcase, ?_⟩
      rintro rfl
      exact hinv.unused_tick hcase)
  constructor
  · intro before time event o after hsplit houtcome
    obtain ⟨rfl, hidle⟩ := (hevents before (time, event) o after hsplit).1 houtcome
    rw [← map_fst_of_run hrun, hsplit] at hpaced
    exact ⟨rfl, hidle, hidle.ended_before rfl hpaced⟩
  · intro before time o after hsplit
    exact (hevents before (time, .idleTick) o after hsplit).2 rfl

def sampleConnection : GrpcConnection := ⟨10, "/a/Tun", "/a/TunMulti"⟩

/-- A stream that ends between two ticks, and a request that is turned away. -/
def sampleInputs : List (Nat × LoopEvent) :=
  [(1, .request "POST" "/a/Tun"), (5, .idleTick), (8, .streamEnd), (10, .idleTick),
    (12, .request "GET" "/"), (15, .idleTick), (20, .idleTick)]

theorem idle_drain_not_early_sample :
    Paced (sampleConnection.idleTimeout / 2) sampleInputs ∧
      ∃ s before, run sampleConnection.step (.start true) sampleInputs =
          some (s, before ++ [((20, .idleTick), .gracefulShutdown)]) ∧
        IdleForTwoTicks before ∧ ((8, .streamEnd), .proceed) ∈ before ∧
        8 + 2 * (sampleConnection.idleTimeout / 2) ≤ 20 := by
  have hpaced : Paced (sampleConnection.idleTimeout / 2) sampleInputs := by
    constructor <;> decide
  obtain ⟨s, before, hrun, hended⟩ : ∃ s before,
      run sampleConnection.step (.start true) sampleInputs =
        some (s, before ++ [((20, .idleTick), .gracefulShutdown)]) ∧
      ((8, .streamEnd), .proceed) ∈ before :=
    ⟨_, ((run sampleConnection.step (.start true) (sampleInputs.take 6)).map Prod.snd).getD [],
      rfl, by decide⟩
  obtain ⟨-, hidle, htime⟩ :=
    (idle_drain_not_early hrun hpaced).1 before 20 .idleTick .gracefulShutdown [] rfl (.inl rfl)
  exact ⟨hpaced, s, before, hrun, hidle, hended, htime 8 .proceed hended⟩

end TrojanServer.GrpcRun
