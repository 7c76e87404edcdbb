import TrojanServer.ShutdownPass

namespace TrojanServer.Shutdown

open TrojanServer.ConnectionManager
open TrojanServer.Relay
open TrojanServer.Revocation
open TrojanServer.StepMachine

variable {σ : Type} {stats : StatsApi σ} {s s' : System σ} {a : Action} {o : Output}
  {trace : Trace}

/-- What is assumed of the length of the map, which adds up its shards one after the other: it is
zero only if no entry stayed in the map for the whole call. -/
def LengthCounts (s : System σ) : Action → Prop
  | .countEnd _ remaining => remaining = 0 → s.stayed = []
  | _ => True

/-- The counter of connection ids does not wrap around, and the panel accepts the final
report. -/
def Orderly (s : System σ) : Action → Prop
  | .server (.fetchAdd _) => s.server.registrations < 2 ^ 64
  | .submitted accepted => accepted = true
  | _ => True

theorem indexInv_step (h : IndexInv s.server) (horderly : Orderly s a)
    (hcase : StepCase stats s a s' o) : IndexInv s'.server := by
  cases hcase with
  | server hstep =>
      refine h.step (Revocation.step_cases hstep) ?_
      rintro session rfl
      exact horderly
  | cancelOne _ _ => exact h.of_unchanged rfl (untouched_cancelConnection _ _) rfl
  | _ => exact h

theorem rank_le_step (hcase : StepCase stats s a s' o) (session : SessionId) :
    (s.server.sessions session).rank ≤ (s'.server.sessions session).rank := by
  cases hcase with
  | server hstep => exact (Revocation.step_cases hstep).rank_le session
  | _ => exact Nat.le_refl _

theorem rank_of_absent {server : Revocation.System} (hindex : IndexInv server)
    {session : SessionId} (hrank : 3 ≤ (server.sessions session).rank)
    (habsent : ∀ id user, server.manager.connections id ≠ some ⟨user, session⟩) :
    5 ≤ (server.sessions session).rank := by
  cases hphase : server.sessions session with
  | inserted user id => exact absurd (hindex.present (.inl hphase)) (habsent id user)
  | registered user id => exact absurd (hindex.present (.inr hphase)) (habsent id user)
  | removing _ _ => exact Nat.le_refl 5
  | closed => exact Nat.le_succ 5
  | _ =>
      rw [hphase] at hrank
      simp [Phase.rank] at hrank

/-- The sessions `early` have taken their connections out of the map. -/
def Gone (early : SessionId → Prop) (s : System σ) : Prop :=
  ∀ session, early session → 5 ≤ (s.server.sessions session).rank

section Count

variable {early : SessionId → Prop}

theorem Gone.step (h : Gone early s) (hcase : StepCase stats s a s' o) : Gone early s' :=
  fun session hearly => (h session hearly).trans (rank_le_step hcase session)

theorem Gone.not_record (h : Gone early s) {session : SessionId} {call : StatsCall}
    (hearly : early session) : ¬StepCase stats s (.record session call) s' o := by
  intro hcase
  cases hcase with
  | record hphase =>
      have hrank := h session hearly
      rw [hphase] at hrank
      simp [Phase.rank] at hrank

theorem Stayed.gone_of_count {now : Nat} (h : Stayed early s) (hindex : IndexInv s.server)
    (hearly : ∀ session, early session → 3 ≤ (s.server.sessions session).rank)
    (hlength : LengthCounts s (.countEnd now 0))
    (hcase : StepCase stats s (.countEnd now 0) s' o) : Gone early s' := by
  intro session hsession
  refine (rank_of_absent hindex (hearly session hsession) ?_).trans (rank_le_step hcase session)
  intro id user hconn
  have hstayed := h id _ hconn hsession
  rw [hlength rfl] at hstayed
  cases hstayed

end Count

/-- From the beginning of a count on, for the sessions that had inserted their connections by
then; once the count has come to zero, they are gone. -/
def Counted (trace : Trace) (s : System σ) : Prop :=
  ∀ before o after, trace = before ++ (.countStart, o) :: after →
    Stayed (Inserted before) s ∧
      ∀ middle now o' rest, after = middle ++ (.countEnd now 0, o') :: rest →
        Gone (Inserted before) s ∧
          ∀ session, Inserted before session → ∀ call out, (.record session call, out) ∉ rest

theorem Counted.step (h : Counted trace s) (hmap : MapInv trace s) (hindex : IndexInv s.server)
    (hlength : LengthCounts s a) (hcase : StepCase stats s a s' o) :
    Counted (trace ++ [(a, o)]) s' := by
  intro before out after hsplit
  rcases snoc_split hsplit with ⟨rfl, heq, rfl⟩ | ⟨after', rfl, hold⟩
  · cases heq
    refine ⟨?_, by simp⟩
    cases hcase with
    | countStart _ => exact hmap.stayed_keys rfl rfl
  · obtain ⟨hstayed, hcounted⟩ := h before out after' hold
    have hearly : ∀ session, Inserted before session → 3 ≤ (s.server.sessions session).rank :=
      fun _ => hmap.inserted_early hold
    refine ⟨hstayed.step hearly hmap hcase, ?_⟩
    intro middle now out' rest hafter
    rcases snoc_split hafter with ⟨rfl, heq, rfl⟩ | ⟨rest', rfl, hold'⟩
    · cases heq
      exact ⟨hstayed.gone_of_count hindex hearly hlength hcase, by simp⟩
    · obtain ⟨hgone, hsilent⟩ := hcounted middle now out' rest' hold'
      refine ⟨hgone.step hcase, ?_⟩
      intro session hinserted call out'' hmem
      rcases List.mem_append.mp hmem with hmem | hmem
      · exact hsilent session hinserted call out'' hmem
      · cases List.mem_singleton.mp hmem
        exact hgone.not_record hinserted hcase

/-- `main` has taken its report out of the collector. -/
def Main.reporting : Main → Bool
  | .submitting _ | .flushed | .unregistered => true
  | .serving | .cancelling _ | .draining _ | .counting _ | .stopped => false

section Report

variable {collected : σ → UserId → Counter → Nat}

/-- The final report is what was recorded and given back before it was taken, without what
others had taken by then. -/
structure Reported (upTo : Trace) (s : System σ) : Prop where
  reporting : s.main.reporting = true
  report : ∀ user counter,
    total s.panel user counter + total s.main.inFlight user counter +
        total (taken upTo) user counter =
      total (recorded upTo) user counter + total (given upTo) user counter

theorem Ledger.flush (hlawful : stats.Lawful collected) (h : Ledger collected trace s)
    (hmain : s.main = .stopped) : Reported trace (s.flushTraffic stats) := by
  refine ⟨?_, ?_⟩
  · simp only [System.flushTraffic]
    split <;> rfl
  · intro user counter
    have hbalanced := h.balanced user counter
    have htaken := hlawful.resetAll_snapshots s.stats user counter
    simp only [System.held, hmain, Main.inFlight, total_nil] at hbalanced
    rw [inFlight_flushTraffic]
    simp only [System.flushTraffic]
    omega

theorem Reported.step {upTo : Trace} (h : Reported upTo s) (horderly : Orderly s a)
    (hcase : StepCase stats s a s' o) : Reported upTo s' := by
  have hreporting := h.reporting
  cases hcase with
  | cancelStart hmain | cancelOne hmain _ | cancelEnd hmain _ | countStart hmain
  | countEnd hmain _ | flush hmain =>
      rw [hmain] at hreporting
      cases hreporting
  | submitted hmain =>
      refine ⟨rfl, ?_⟩
      intro user counter
      have hreport := h.report user counter
      simp only [hmain, Main.inFlight] at hreport
      simp only [Main.inFlight, total_append, total_nil]
      omega
  | refused _ => cases horderly
  | unregister hmain =>
      refine ⟨rfl, ?_⟩
      have hreport := h.report
      rw [hmain] at hreport
      exact hreport
  | _ => exact ⟨h.reporting, h.report⟩

theorem reported_of_run (hlawful : stats.Lawful collected) {users : List (Password × UserId)}
    {actions : List Action}
    (hrun : run (System.step stats) (System.start stats users) actions = some (s, trace))
    (horderly : Along (System.step stats) Orderly (System.start stats users) actions)
    {upTo rest : Trace} (hsplit : trace = upTo ++ (.flush, o) :: rest) : Reported upTo s := by
  let P (trace : Trace) (s : System σ) : Prop :=
    Ledger collected trace s ∧
      ∀ upTo o rest, trace = upTo ++ (.flush, o) :: rest → Reported upTo s
  have hinv : P trace s := by
    refine run_induction_along (P := P) hrun horderly ⟨ledger_start hlawful users, by simp⟩ ?_
    rintro trace s a s' o ⟨hledger, hreported⟩ horderly hstep
    have hcase := stepCase_of_step hstep
    refine ⟨hledger.step hlawful hcase, ?_⟩
    intro upTo out rest hsplit
    rcases snoc_split hsplit with ⟨rfl, heq, -⟩ | ⟨rest', -, hold⟩
    · cases heq
      cases hcase with
      | flush hmain => exact hledger.flush hlawful hmain
    · exact (hreported upTo out rest' hold).step horderly hcase
  exact hinv.2 upTo o rest hsplit

theorem counted_of_run {users : List (Password × UserId)} {actions : List Action}
    (hrun : run (System.step stats) (System.start stats users) actions = some (s, trace))
    (hlength : Along (System.step stats) LengthCounts (System.start stats users) actions)
    (horderly : Along (System.step stats) Orderly (System.start stats users) actions) :
    Counted trace s := by
  let P (trace : Trace) (s : System σ) : Prop :=
    MapInv trace s ∧ IndexInv s.server ∧ Counted trace s
  have hinv : P trace s := by
    refine run_induction_along (P := P) hrun (along_and hlength horderly)
      ⟨mapInv_start users, indexInv_start users, by simp [Counted]⟩ ?_
    rintro trace s a s' o ⟨hmap, hindex, hcounted⟩ ⟨hlength, horderly⟩ hstep
    have hcase := stepCase_of_step hstep
    exact ⟨hmap.step hcase, indexInv_step hindex horderly hcase,
      hcounted.step hmap hindex hlength hcase⟩
  exact hinv.2.2

/-- Once the drain loop has counted zero connections, no session that had put its connection into
the map before the count began records anything more.  When the final report has been accepted,
the panel has exactly what the sessions had recorded and other callers had put into the collector
until it was taken, without what other callers had taken out. -/
theorem drained_traffic_reported (hlawful : stats.Lawful collected)
    {users : List (Password × UserId)} {actions : List Action} {before middle after : Trace}
    {now : Nat} {o' : Output}
    (hrun : run (System.step stats) (System.start stats users) actions = some (s, trace))
    (hlength : Along (System.step stats) LengthCounts (System.start stats users) actions)
    (horderly : Along (System.step stats) Orderly (System.start stats users) actions)
    (hsplit : trace =
      before ++ (.countStart, o) :: (middle ++ (.countEnd now 0, o') :: after)) :
    (∀ session, Inserted before session → ∀ call out, (.record session call, out) ∉ after) ∧
      ∀ later out rest upTo, after = later ++ (.flush, out) :: rest →
        upTo = before ++ (.countStart, o) :: (middle ++ (.countEnd now 0, o') :: later) →
        s.main = .flushed ∨ s.main = .unregistered → ∀ user counter,
          total s.panel user counter + total (taken upTo) user counter =
            total (recorded upTo) user counter + total (given upTo) user counter := by
  have hcounted := counted_of_run hrun hlength horderly
  refine ⟨((hcounted before o _ hsplit).2 middle now o' after rfl).2, ?_⟩
  intro later out rest upTo hafter hupTo hmain user counter
  have hflush : trace = upTo ++ (.flush, out) :: rest := by
    rw [hsplit, hupTo, hafter]
    simp
  have hreport := (reported_of_run hlawful hrun horderly hflush).report user counter
  have hinFlight : s.main.inFlight = [] := by
    rcases hmain with hmain | hmain <;> rw [hmain] <;> rfl
  rw [hinFlight, total_nil, Nat.add_zero] at hreport
  exact hreport

end Report

/-- The five bytes the session uploaded were taken by another caller, who put two back. -/
theorem drained_traffic_reported_shutdown :
    ∃ s trace, run (System.step listStats) (System.start listStats [(password, 7)])
        shutdownActions = some (s, trace) ∧
      ∃ upTo rest, trace = upTo ++ (.flush, .silent) :: rest ∧
        total (recorded upTo) 7 .upload = 5 ∧
        total s.panel 7 .upload + total (taken upTo) 7 .upload =
          total (recorded upTo) 7 .upload + total (given upTo) 7 .upload := by
  obtain ⟨s, trace, hrun, hmain, before, middle, later, rest, hsplit, htotal⟩ : ∃ s trace,
      run (System.step listStats) (System.start listStats [(password, 7)]) shutdownActions =
        some (s, trace) ∧ s.main = .flushed ∧
      ∃ before middle later rest,
        trace = before ++ (.countStart, .silent) :: (middle ++ (.countEnd 100 0, .silent) ::
          (later ++ (.flush, .silent) :: rest)) ∧
        total (recorded (before ++ (.countStart, .silent) ::
          (middle ++ (.countEnd 100 0, .silent) :: later))) 7 .upload = 5 :=
    ⟨_, _, rfl, rfl, [_, _, _, _, _, _, _, _, _, _, _, _, _, _], [], [], [_], rfl, rfl⟩
  have hlength : Along (System.step listStats) LengthCounts
      (System.start listStats [(password, 7)]) shutdownActions := by
    iterate 15 refine along_cons rfl trivial ?_
    refine along_cons rfl (fun _ => rfl) ?_
    exact along_cons rfl trivial (along_cons rfl trivial trivial)
  have horderly : Along (System.step listStats) Orderly
      (System.start listStats [(password, 7)]) shutdownActions := by
    refine along_cons rfl trivial (along_cons rfl (Nat.two_pow_pos 64) ?_)
    iterate 15 refine along_cons rfl trivial ?_
    exact along_cons rfl rfl trivial
  obtain ⟨-, hreport⟩ := drained_traffic_reported lawful_listStats hrun hlength horderly hsplit
  refine ⟨s, trace, hrun, _, rest, ?_, htotal,
    hreport later .silent rest _ rfl rfl (.inl hmain) 7 .upload⟩
  rw [hsplit]
  simp

end TrojanServer.Shutdown
