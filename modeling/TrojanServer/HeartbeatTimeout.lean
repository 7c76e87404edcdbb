import TrojanServer.Heartbeat
import TrojanServer.StepMachine
import TrojanServer.Streaks

namespace TrojanServer.Heartbeat

open TrojanServer.StepMachine
open TrojanServer.Streaks

section Signs

def Event.isTick : Event → Bool
  | .poll (.tick _) => true
  | _ => false

/-- A PING was sent and no PONG received after it. -/
def Outstanding (h : List Event) : Prop :=
  ∃ before after, h = before ++ .poll (.tick .sent) :: after ∧ .poll .pong ∉ after

/-- Neither a tick nor a sign of the peer on the PING or on a stream. -/
def Quiet (e : Event) : Prop := e.isTick = false ∧ e ≠ .poll .pong ∧ e ≠ .data

/-- A PING was outstanding at the last tick, and all has been quiet since. -/
def Unanswered (h : List Event) : Prop :=
  ∃ before ping after, h = before ++ .poll (.tick ping) :: after ∧
    Outstanding (before ++ [.poll (.tick ping)]) ∧ ∀ e ∈ after, Quiet e

/-- The history up to a tick `t₃`: the three ticks `t₀`, `t₁` and `t₂` before it with a PING
outstanding from `t₀` on, all quiet from there to `t₃`, and no request after `t₁`. -/
def ThreeUnexcused (h : List Event) : Prop :=
  ∃ before t₀ s₁ t₁ s₂ t₂ s₃,
    h = before ++ .poll (.tick t₀) :: (s₁ ++ .poll (.tick t₁) :: (s₂ ++ .poll (.tick t₂) :: s₃)) ∧
      Outstanding (before ++ [.poll (.tick t₀)]) ∧ (∀ e ∈ s₁ ++ s₂ ++ s₃, Quiet e) ∧
      .request ∉ s₂ ++ s₃

/-- The ticks that count, and the events that leave the count as it is. -/
def Missed (h : List Event) (e : Event) : Prop := e.isTick = true ∧ Unanswered h

def Skipped (e : Event) : Prop := e.isTick = false ∧ e ≠ .poll .pong ∧ e ≠ .request

variable {h : List Event} {e : Event}

theorem eq_tick_of_isTick (he : e.isTick = true) : ∃ ping, e = .poll (.tick ping) := by
  match e with
  | .poll (.tick ping) => exact ⟨ping, rfl⟩

theorem outstanding_snoc_iff :
    Outstanding (h ++ [e]) ↔ e = .poll (.tick .sent) ∨ Outstanding h ∧ e ≠ .poll .pong := by
  constructor
  · rintro ⟨before, after, hsplit, hpong⟩
    rcases snoc_split hsplit with ⟨-, rfl, -⟩ | ⟨after, rfl, rfl⟩
    · exact .inl rfl
    · simp only [List.mem_append, List.mem_singleton, not_or] at hpong
      exact .inr ⟨⟨before, after, rfl, hpong.1⟩, Ne.symm hpong.2⟩
  · rintro (rfl | ⟨⟨before, after, rfl, hpong⟩, hne⟩)
    · exact ⟨h, [], rfl, by simp⟩
    · exact ⟨before, after ++ [e], by simp, by simp [hpong, Ne.symm hne]⟩

theorem Outstanding.append {s : List Event} (hout : Outstanding h) (hs : .poll .pong ∉ s) :
    Outstanding (h ++ s) := by
  obtain ⟨before, after, rfl, hpong⟩ := hout
  exact ⟨before, after ++ s, by simp, by simp [hpong, hs]⟩

theorem unanswered_snoc_iff :
    Unanswered (h ++ [e]) ↔ e.isTick = true ∧ Outstanding (h ++ [e]) ∨ Unanswered h ∧ Quiet e := by
  constructor
  · rintro ⟨before, ping, after, hsplit, hout, hquiet⟩
    rcases snoc_split hsplit with ⟨rfl, rfl, -⟩ | ⟨after, rfl, rfl⟩
    · exact .inl ⟨rfl, hout⟩
    · exact .inr ⟨⟨before, ping, after, rfl, hout, fun x hx => hquiet x (by simp [hx])⟩,
        hquiet e (by simp)⟩
  · rintro (⟨htick, hout⟩ | ⟨⟨before, ping, after, rfl, hout, hquiet⟩, he⟩)
    · obtain ⟨ping, rfl⟩ := eq_tick_of_isTick htick
      exact ⟨h, ping, [], rfl, hout, by simp⟩
    · refine ⟨before, ping, after ++ [e], by simp, hout, ?_⟩
      intro x hx
      rcases List.mem_append.mp hx with hx | hx
      · exact hquiet x hx
      · rwa [List.mem_singleton.mp hx]

/-- Since the last tick of the history all has been quiet, and it is the last one only in
one way. -/
theorem quiet_of_unanswered {before after : List Event} (htick : e.isTick = true)
    (hafter : ∀ x ∈ after, Skipped x) (hun : Unanswered (before ++ e :: after)) :
    ∀ x ∈ after, Quiet x := by
  obtain ⟨before', ping, after', hsplit, -, hquiet⟩ := hun
  obtain ⟨-, -, rfl⟩ := last_split_unique (p := fun x : Event => x.isTick = true) hsplit htick rfl
    (fun x hx => by simp [(hafter x hx).1]) (fun x hx => by simp [(hquiet x hx).1])
  exact hquiet

theorem unanswered_of_quiet {before after : List Event} {ping : PingCall}
    (hout : Outstanding (before ++ [.poll (.tick ping)])) (hafter : ∀ e ∈ after, Quiet e) :
    Unanswered (before ++ .poll (.tick ping) :: after) :=
  ⟨before, ping, after, rfl, hout, hafter⟩

/-- The PING outstanding at a tick still is at the next one, if all was quiet between them. -/
theorem outstanding_next {before s : List Event} {ping : PingCall} (ping' : PingCall)
    (hout : Outstanding (before ++ [.poll (.tick ping)])) (hs : ∀ e ∈ s, Quiet e) :
    Outstanding (before ++ .poll (.tick ping) :: s ++ [.poll (.tick ping')]) := by
  have hpong : .poll .pong ∉ s ++ [.poll (.tick ping')] := by
    simp only [List.mem_append, List.mem_singleton, Event.poll.injEq, reduceCtorEq, or_false]
    intro hmem
    exact (hs _ hmem).2.1 rfl
  simpa using hout.append hpong

theorem skipped_of_quiet {s : List Event} (hs : ∀ e ∈ s, Quiet e) (hrequest : .request ∉ s) :
    ∀ e ∈ s, Skipped e := by
  intro e he
  refine ⟨(hs e he).1, (hs e he).2.1, ?_⟩
  rintro rfl
  exact hrequest he

theorem threeUnexcused_iff :
    ThreeUnexcused h ↔ Unanswered h ∧ Streak Missed Skipped h 2 := by
  constructor
  · rintro ⟨before, t₀, s₁, t₁, s₂, t₂, s₃, rfl, hout, hquiet, hrequest⟩
    simp only [List.mem_append, not_or] at hrequest
    have hs₁ : ∀ e ∈ s₁, Quiet e := fun e he => hquiet e (by simp [he])
    have hs₂ : ∀ e ∈ s₂, Quiet e := fun e he => hquiet e (by simp [he])
    have hs₃ : ∀ e ∈ s₃, Quiet e := fun e he => hquiet e (by simp [he])
    have hout₁ := outstanding_next t₁ hout hs₁
    have hout₂ := outstanding_next t₂ hout₁ hs₂
    have hun := unanswered_of_quiet hout₂ hs₃
    have hmark₁ : Missed _ (.poll (.tick t₁)) := ⟨rfl, unanswered_of_quiet hout hs₁⟩
    have hmark₂ : Missed _ (.poll (.tick t₂)) := ⟨rfl, unanswered_of_quiet hout₁ hs₂⟩
    simp only [List.append_assoc, List.cons_append] at hun hmark₂
    refine ⟨hun, streak_succ_iff.mpr ⟨_, _, s₃, ?_, hmark₂, ?_, skipped_of_quiet hs₃ hrequest.2⟩⟩
    · simp
    · exact streak_succ_iff.mpr
        ⟨_, _, s₂, by simp, hmark₁, .none _, skipped_of_quiet hs₂ hrequest.1⟩
  · rintro ⟨hun, hstreak⟩
    obtain ⟨_, t₂, s₃, rfl, ⟨htick₂, hun₂⟩, hstreak, hs₃⟩ := streak_succ_iff.mp hstreak
    obtain ⟨_, t₁, s₂, rfl, ⟨htick₁, hun₁⟩, -, hs₂⟩ := streak_succ_iff.mp hstreak
    have hquiet₃ := quiet_of_unanswered htick₂ hs₃ hun
    have hquiet₂ := quiet_of_unanswered htick₁ hs₂ hun₂
    obtain ⟨before, t₀, s₁, rfl, hout, hquiet₁⟩ := hun₁
    obtain ⟨t₁, rfl⟩ := eq_tick_of_isTick htick₁
    obtain ⟨t₂, rfl⟩ := eq_tick_of_isTick htick₂
    refine ⟨before, t₀, s₁, t₁, s₂, t₂, s₃, by simp, hout, ?_, ?_⟩
    · intro e he
      simp only [List.mem_append] at he
      rcases he with (he | he) | he
      · exact hquiet₁ e he
      · exact hquiet₂ e he
      · exact hquiet₃ e he
    · intro hrequest
      rcases List.mem_append.mp hrequest with he | he
      · exact (hs₂ _ he).2.2 rfl
      · exact (hs₃ _ he).2.2 rfl

end Signs

section Step

variable {hb hb' : H2Heartbeat} {wake : Wake} {result : Except String Unit}

/-- What a `poll` that returned has done. -/
inductive PollCase (hb : H2Heartbeat) : Wake → H2Heartbeat → Except String Unit → Prop
  | pong (hwaiting : hb.waitingPong = true) :
      PollCase hb .pong { hb with waitingPong := false, missedPings := 0 } (.ok ())
  | pongError (hwaiting : hb.waitingPong = true) :
      PollCase hb .pongError { hb with waitingPong := false } (.error "PONG error")
  | excused (hwaiting : hb.waitingPong = true) (hactive : hb.activity = true) :
      PollCase hb (.tick .notMade) { hb with activity := false, missedPings := 0 } (.ok ())
  | missed (hwaiting : hb.waitingPong = true) (hactive : hb.activity = false)
      (hfew : hb.missedPings + 1 < maxMissedPings) :
      PollCase hb (.tick .notMade)
        { hb with activity := false, missedPings := hb.missedPings + 1 } (.ok ())
  | timeout (hwaiting : hb.waitingPong = true) (hactive : hb.activity = false)
      (hmany : maxMissedPings ≤ hb.missedPings + 1) :
      PollCase hb (.tick .notMade)
        { hb with activity := false, missedPings := hb.missedPings + 1 }
        (.error "heartbeat timeout")
  | sent (hidle : hb.waitingPong = false) :
      PollCase hb (.tick .sent) { hb with activity := false, waitingPong := true } (.ok ())
  | failed (hidle : hb.waitingPong = false) :
      PollCase hb (.tick .failed) { hb with activity := false } (.ok ())

theorem pollCase_of_poll (h : hb.poll wake = some (hb', result)) : PollCase hb wake hb' result := by
  unfold H2Heartbeat.poll at h
  split at h
  · cases h
  split at h
  · rename_i hwaiting
    match wake with
    | .pong =>
        cases h
        exact .pong hwaiting
    | .pongError =>
        cases h
        exact .pongError hwaiting
    | .tick .notMade =>
        simp only at h
        split at h
        · rename_i hactive
          cases h
          exact .excused hwaiting hactive
        · rename_i hactive
          have hactive : hb.activity = false := Bool.eq_false_iff.mpr hactive
          split at h
          · rename_i hmany
            cases h
            exact .timeout hwaiting hactive hmany
          · rename_i hfew
            cases h
            exact .missed hwaiting hactive (Nat.lt_of_not_le hfew)
    | .tick .sent => cases h
    | .tick .failed => cases h
  · rename_i hidle
    have hidle := Bool.eq_false_iff.mpr hidle
    match wake with
    | .tick .sent =>
        cases h
        exact .sent hidle
    | .tick .failed =>
        cases h
        exact .failed hidle
    | .tick .notMade => cases h
    | .pong => cases h
    | .pongError => cases h

inductive StepCase (m : Monitor) : Event → Monitor → Option (Except String Unit) → Prop
  | poll {wake : Wake} {hb' : H2Heartbeat} {result : Except String Unit}
      (hcase : PollCase m.heartbeat wake hb' result) :
      StepCase m (.poll wake) ⟨hb', failed result⟩ (some result)
  | cancelled : StepCase m .cancelled m none
  | data :
      StepCase m .data { m with heartbeat := { m.heartbeat with activity := true } } none
  | request : StepCase m .request { m with heartbeat := m.heartbeat.onActivity } none

theorem stepCase_of_step {m m' : Monitor} {e : Event} {o : Option (Except String Unit)}
    (h : step m e = some (m', o)) : m.ended = false ∧ StepCase m e m' o := by
  unfold step at h
  split at h
  · cases h
  rename_i hlive
  refine ⟨Bool.eq_false_iff.mpr hlive, ?_⟩
  match e with
  | .poll wake =>
      obtain ⟨⟨hb', result⟩, hpoll, heq⟩ := Option.map_eq_some_iff.mp h
      cases heq
      exact .poll (pollCase_of_poll hpoll)
  | .cancelled =>
      cases h
      exact .cancelled
  | .data =>
      cases h
      exact .data
  | .request =>
      cases h
      exact .request

end Step

section Run

variable {h : List Event} {hb hb' : H2Heartbeat} {wake : Wake} {result : Except String Unit}

structure BeatInv (h : List Event) (hb : H2Heartbeat) : Prop where
  waiting : hb.waitingPong = true ↔ Outstanding h
  unanswered : Unanswered h ↔ hb.waitingPong = true ∧ hb.activity = false
  missed : Counts Missed Skipped h hb.missedPings
  idle : hb.waitingPong = false → hb.missedPings = 0

/-- A tick that is excused, or finds no PING outstanding, breaks the streak. -/
theorem counts_tick {ping : PingCall} (hun : ¬ Unanswered h) :
    Counts Missed Skipped (h ++ [.poll (.tick ping)]) 0 :=
  counts_reset (fun hmissed => hun hmissed.2) (by simp [Skipped, Event.isTick])

theorem beatInv_new (pingPong activity : Bool) : BeatInv [] (.new pingPong activity) := by
  refine ⟨?_, ?_, counts_nil, fun _ => rfl⟩
  · simp [H2Heartbeat.new, Outstanding]
  · simp [H2Heartbeat.new, Unanswered]

theorem BeatInv.cancelled (hinv : BeatInv h hb) : BeatInv (h ++ [.cancelled]) hb := by
  refine ⟨?_, ?_, ?_, hinv.idle⟩
  · simp [outstanding_snoc_iff, hinv.waiting]
  · simp [unanswered_snoc_iff, hinv.unanswered, Event.isTick, Quiet]
  · exact hinv.missed.gap (by simp [Missed, Event.isTick]) (by simp [Skipped, Event.isTick])

theorem BeatInv.data (hinv : BeatInv h hb) :
    BeatInv (h ++ [.data]) { hb with activity := true } := by
  refine ⟨?_, ?_, ?_, hinv.idle⟩
  · simp [outstanding_snoc_iff, hinv.waiting]
  · simp [unanswered_snoc_iff, Event.isTick, Quiet]
  · exact hinv.missed.gap (by simp [Missed, Event.isTick]) (by simp [Skipped, Event.isTick])

theorem BeatInv.request (hinv : BeatInv h hb) : BeatInv (h ++ [.request]) hb.onActivity := by
  refine ⟨?_, ?_, ?_, fun _ => rfl⟩
  · simp [outstanding_snoc_iff, hinv.waiting, H2Heartbeat.onActivity]
  · simp [unanswered_snoc_iff, hinv.unanswered, Event.isTick, Quiet, H2Heartbeat.onActivity]
  · exact counts_reset (by simp [Missed, Event.isTick]) (by simp [Skipped])

theorem BeatInv.poll (hinv : BeatInv h hb) (hcase : PollCase hb wake hb' (.ok ())) :
    BeatInv (h ++ [.poll wake]) hb' := by
  obtain ⟨hwait, hun, hmissed, hidle⟩ := hinv
  generalize hok : Except.ok () = result at hcase
  cases hcase with
  | pong hwaiting =>
      refine ⟨?_, ?_, ?_, fun _ => rfl⟩
      · simp [outstanding_snoc_iff]
      · simp [unanswered_snoc_iff, Event.isTick, Quiet]
      · exact counts_reset (by simp [Missed, Event.isTick]) (by simp [Skipped])
  | pongError _ => cases hok
  | excused hwaiting hactive =>
      have hout := hwait.mp hwaiting
      refine ⟨?_, ?_, ?_, fun _ => rfl⟩
      · simp [outstanding_snoc_iff, hout, hwaiting]
      · simp [unanswered_snoc_iff, outstanding_snoc_iff, hout, hwaiting, Event.isTick]
      · exact counts_tick (by simp [hun, hactive])
  | missed hwaiting hactive hfew =>
      have hout := hwait.mp hwaiting
      refine ⟨?_, ?_, ?_, ?_⟩
      · simp [outstanding_snoc_iff, hout, hwaiting]
      · simp [unanswered_snoc_iff, outstanding_snoc_iff, hout, hwaiting, Event.isTick]
      · exact hmissed.mark ⟨rfl, hun.mpr ⟨hwaiting, hactive⟩⟩
      · simp [hwaiting]
  | timeout _ _ _ => cases hok
  | sent hidle' =>
      have hzero := hidle hidle'
      refine ⟨?_, ?_, ?_, ?_⟩
      · simp [outstanding_snoc_iff]
      · simp [unanswered_snoc_iff, outstanding_snoc_iff, Event.isTick]
      · rw [hzero]
        exact counts_tick (by simp [hun, hidle'])
      · simp
  | failed hidle' =>
      have hzero := hidle hidle'
      have hout : ¬ Outstanding h := by simp [← hwait, hidle']
      refine ⟨?_, ?_, ?_, hidle⟩
      · simp [outstanding_snoc_iff, hout, hidle']
      · simp [unanswered_snoc_iff, outstanding_snoc_iff, hout, hidle', Event.isTick, Quiet]
      · rw [hzero]
        exact counts_tick (by simp [hun, hidle'])

/-- A `poll` gives up exactly at a tick that is the third in a row to be missed. -/
theorem BeatInv.timeout_iff (hinv : BeatInv h hb) (hcase : PollCase hb wake hb' result) :
    result = .error "heartbeat timeout" ↔
      (Event.poll wake).isTick = true ∧ ThreeUnexcused h := by
  rw [threeUnexcused_iff, hinv.unanswered, hinv.missed 2]
  cases hcase with
  | pong _ => simp [Event.isTick]
  | pongError _ => simp [Event.isTick]
  | excused _ hactive => simp [hactive]
  | missed _ _ hfew =>
      refine iff_of_false (by simp) ?_
      rintro ⟨-, -, hle⟩
      exact absurd hfew (by simp only [maxMissedPings]; omega)
  | timeout hwaiting hactive hmany =>
      refine iff_of_true rfl ⟨rfl, ⟨hwaiting, hactive⟩, ?_⟩
      simp only [maxMissedPings] at hmany
      omega
  | sent hidle => simp [hidle]
  | failed hidle => simp [hidle]

/-- The heartbeat only fails while a PING is outstanding. -/
theorem BeatInv.outstanding_of_error (hinv : BeatInv h hb) {text : String}
    (hcase : PollCase hb wake hb' (.error text)) : Outstanding (h ++ [.poll wake]) := by
  rw [outstanding_snoc_iff]
  cases hcase with
  | pongError hwaiting => exact .inr ⟨hinv.waiting.mp hwaiting, by simp⟩
  | timeout hwaiting _ _ => exact .inr ⟨hinv.waiting.mp hwaiting, by simp⟩

variable {trace : History} {m m' : Monitor} {e : Event} {o : Option (Except String Unit)}

theorem BeatInv.step (hinv : BeatInv h m.heartbeat) (hlive : m.ended = false)
    (hcase : StepCase m e m' o) :
    (m'.ended = false → BeatInv (h ++ [e]) m'.heartbeat ∧ ∀ text, o ≠ some (.error text)) ∧
      (m'.ended = true → Outstanding (h ++ [e])) := by
  cases hcase with
  | @poll wake hb' result hcase =>
      cases result with
      | ok => exact ⟨fun _ => ⟨hinv.poll hcase, by simp⟩, by simp [failed]⟩
      | error text => exact ⟨by simp [failed], fun _ => hinv.outstanding_of_error hcase⟩
  | cancelled => exact ⟨fun _ => ⟨hinv.cancelled, by simp⟩, by simp [hlive]⟩
  | data => exact ⟨fun _ => ⟨hinv.data, by simp⟩, by simp [hlive]⟩
  | request => exact ⟨fun _ => ⟨hinv.request, by simp⟩, by simp [hlive]⟩

structure MonitorInv (trace : History) (m : Monitor) : Prop where
  live : m.ended = false → BeatInv (trace.map Prod.fst) m.heartbeat ∧
    ∀ e text, (e, some (.error text)) ∉ trace
  ended : m.ended = true → Outstanding (trace.map Prod.fst)
  last : ∀ before e text after, trace = before ++ (e, some (.error text)) :: after → after = []

theorem MonitorInv.step (hinv : MonitorInv trace m) (hlive : m.ended = false)
    (hcase : StepCase m e m' o) : MonitorInv (trace ++ [(e, o)]) m' := by
  obtain ⟨hbeat, hnone⟩ := hinv.live hlive
  obtain ⟨hlive', hended'⟩ := hbeat.step hlive hcase
  refine ⟨?_, ?_, ?_⟩
  · intro hgoes
    rw [List.map_append]
    refine ⟨(hlive' hgoes).1, ?_⟩
    intro e' text hmem
    rcases List.mem_append.mp hmem with hmem | hmem
    · exact hnone e' text hmem
    · cases List.mem_singleton.mp hmem
      exact (hlive' hgoes).2 text rfl
  · rw [List.map_append]
    exact hended'
  · intro before e' text after hsplit
    rcases snoc_split hsplit with ⟨-, -, rfl⟩ | ⟨after, rfl, rfl⟩
    · rfl
    · exact absurd (by simp) (hnone e' text)

/-- An event that is no tick returns no timeout, and a tick does exactly if it is the third
in a row that nothing excused. -/
theorem MonitorInv.timeout_iff (hinv : MonitorInv trace m) (hlive : m.ended = false)
    (hcase : StepCase m e m' o) :
    o = some (.error "heartbeat timeout") ↔
      e.isTick = true ∧ ThreeUnexcused (trace.map Prod.fst) := by
  have hbeat := (hinv.live hlive).1
  cases hcase with
  | poll hcase => simpa using hbeat.timeout_iff hcase
  | cancelled => simp [Event.isTick]
  | data => simp [Event.isTick]
  | request => simp [Event.isTick]

end Run

/-- In every run the heartbeat times out exactly at the third tick in a row that nothing
excused; an error ends the run, and nothing is counted while no PING is outstanding. -/
theorem timeout_iff_three_unexcused {pingPong activity : Bool} {events : List Event} {m : Monitor}
    {trace : History} (hrun : run step (start pingPong activity) events = some (m, trace)) :
    (∀ before e o after, trace = before ++ (e, o) :: after →
      (o = some (.error "heartbeat timeout") ↔
        e.isTick = true ∧ ThreeUnexcused (before.map Prod.fst))) ∧
      (∀ before e text after, trace = before ++ (e, some (.error text)) :: after → after = []) ∧
      (¬ Outstanding events → m.heartbeat.missedPings = 0) := by
  obtain ⟨hinv, hevents⟩ := run_induction_events (P := MonitorInv)
    (Q := fun before e o => o = some (.error "heartbeat timeout") ↔
      e.isTick = true ∧ ThreeUnexcused (before.map Prod.fst)) hrun (along_trivial _ _)
    ⟨fun _ => ⟨beatInv_new pingPong activity, by simp⟩, by simp [start], by simp⟩ (by
      intro trace m e m' o hinv _ hstep
      obtain ⟨hlive, hcase⟩ := stepCase_of_step hstep
      exact ⟨hinv.step hlive hcase, hinv.timeout_iff hlive hcase⟩)
  refine ⟨hevents, hinv.last, ?_⟩
  intro hout
  rw [← map_fst_of_run hrun] at hout
  cases hended : m.ended with
  | true => exact absurd (hinv.ended hended) hout
  | false =>
      have hbeat := (hinv.live hended).1
      exact hbeat.idle (Bool.eq_false_iff.mpr fun hwaiting => hout (hbeat.waiting.mp hwaiting))

/-- A PING that stays unanswered: data before it does not help, data after it excuses one
tick, a request starts the count again, and then three ticks are missed. -/
def sampleEvents : List Event :=
  [.data, .poll (.tick .sent), .data, .cancelled, .poll (.tick .notMade), .request,
    .poll (.tick .notMade), .cancelled, .poll (.tick .notMade), .poll (.tick .notMade)]

theorem timeout_iff_three_unexcused_sample :
    ∃ m trace, run step (start true false) sampleEvents = some (m, trace) ∧
      trace.getLast? = some (.poll (.tick .notMade), some (.error "heartbeat timeout")) ∧
      ThreeUnexcused (sampleEvents.take 9) := by
  obtain ⟨m, before, hrun, hbefore⟩ : ∃ m before, run step (start true false) sampleEvents =
        some (m, before ++ [(.poll (.tick .notMade), some (.error "heartbeat timeout"))]) ∧
      before.map Prod.fst = sampleEvents.take 9 :=
    ⟨_, ((run step (start true false) (sampleEvents.take 9)).map Prod.snd).getD [], rfl, rfl⟩
  have htimeout := ((timeout_iff_three_unexcused hrun).1 before _ _ [] rfl).mp rfl
  rw [hbefore] at htimeout
  exact ⟨m, _, hrun, by simp, htimeout.2⟩

end TrojanServer.Heartbeat
