import Mathlib.Algebra.GroupWithZero.Nat
import TrojanServer.RelayIntegrity

namespace TrojanServer.RelayAccounting

open TrojanServer.AsyncIo
open TrojanServer.PollCopy
open TrojanServer.PollCopy.DirectionalBuffer
open TrojanServer.Relay
open TrojanServer.RelayIntegrity

def uploadBytes : Effect → Nat
  | .recordUpload _ bytes => bytes
  | _ => 0

def downloadBytes : Effect → Nat
  | .recordDownload _ bytes => bytes
  | _ => 0

def uploaded (effects : List Effect) : Nat := (effects.map uploadBytes).sum

def downloaded (effects : List Effect) : Nat := (effects.map downloadBytes).sum

def effectsOf (trace : Trace) : List Effect := trace.flatMap fun event => event.2

@[simp] theorem uploaded_append (effects effects' : List Effect) :
    uploaded (effects ++ effects') = uploaded effects + uploaded effects' := by
  simp [uploaded]

@[simp] theorem downloaded_append (effects effects' : List Effect) :
    downloaded (effects ++ effects') = downloaded effects + downloaded effects' := by
  simp [downloaded]

@[simp] theorem effectsOf_snoc (trace : Trace) (p : PollCalls) (effects : List Effect) :
    effectsOf (trace ++ [(p, effects)]) = effectsOf trace ++ effects := by
  simp [effectsOf]

theorem recorded_unreported_upload (user : UserId) (transferred reported : Nat) :
    uploaded (unreported (.recordUpload user) transferred reported) =
        transferred - reported ∧
      downloaded (unreported (.recordUpload user) transferred reported) = 0 := by
  unfold unreported
  split
  · simp [uploaded, downloaded, uploadBytes, downloadBytes]
  · simp [uploaded, downloaded]
    omega

theorem recorded_unreported_download (user : UserId) (transferred reported : Nat) :
    uploaded (unreported (.recordDownload user) transferred reported) = 0 ∧
      downloaded (unreported (.recordDownload user) transferred reported) =
        transferred - reported := by
  unfold unreported
  split
  · simp [uploaded, downloaded, uploadBytes, downloadBytes]
  · simp [uploaded, downloaded]
    omega

theorem recorded_finalReport {cfg : RelayConfig} {user : UserId} (hstats : cfg.stats = some user)
    (s : RelayState) :
    uploaded (finalReport cfg s) = s.aToB.amt - s.reportedUp ∧
      downloaded (finalReport cfg s) = s.bToA.amt - s.reportedDown := by
  simp [finalReport, hstats, recorded_unreported_upload, recorded_unreported_download,
    bytesTransferred]

theorem recorded_settle {cfg : RelayConfig} {user : UserId} (hstats : cfg.stats = some user)
    (now : Nat) (s : RelayState) (aToB bToA : DirectionalBuffer) :
    uploaded (settle cfg now s aToB bToA).2 = aToB.amt - s.reportedUp ∧
      downloaded (settle cfg now s aToB bToA).2 = bToA.amt - s.reportedDown := by
  have harm : ∀ s, uploaded (armHalfClose cfg now s).2 = 0 ∧
      downloaded (armHalfClose cfg now s).2 = 0 := by
    intro s
    rcases armHalfClose_cases cfg now s with h | ⟨-, timeout, -, h⟩ <;>
      simp [h, uploaded, downloaded, uploadBytes, downloadBytes]
  have hreset : ∀ progress s, uploaded (resetTimers cfg now progress s).2 = 0 ∧
      downloaded (resetTimers cfg now progress s).2 = 0 := by
    intro progress s
    unfold resetTimers
    cases progress <;> cases s.halfCloseActive <;>
      simp [uploaded, downloaded, uploadBytes, downloadBytes]
  simp [settle, harm, hreset, reportTraffic_effects, recorded_finalReport hstats]

theorem reported_settle {cfg : RelayConfig} {user : UserId} (hstats : cfg.stats = some user)
    (now : Nat) (s : RelayState) (aToB bToA : DirectionalBuffer) :
    (settle cfg now s aToB bToA).1.reportedUp = max s.reportedUp aToB.amt ∧
      (settle cfg now s aToB bToA).1.reportedDown = max s.reportedDown bToA.amt := by
  simp only [settle, resetTimers_frame, reportTraffic, hstats, armHalfClose_frame,
    bytesTransferred]
  constructor <;> split <;> omega

/-- Everything transferred was recorded, and while the relay is suspended the
counters of the poll closure say so. -/
structure AccountingInv (trace : Trace) (r : RelayFuture) : Prop where
  uploaded : uploaded (effectsOf trace) = r.state.aToB.amt
  downloaded : downloaded (effectsOf trace) = r.state.bToA.amt
  reportedUp : r.returned = none → r.state.reportedUp = r.state.aToB.amt
  reportedDown : r.returned = none → r.state.reportedDown = r.state.bToA.amt

theorem amt_le_of_polled {d d' : DirectionalBuffer} {calls : List IoCall}
    {error : Option IoError} (hwf : d.WellFormed)
    (h : pollDirection d calls = some (d', error)) : d.amt ≤ d'.amt := by
  rw [(pollDirection_spec h hwf).amt]
  exact Nat.le_add_right _ _

section Poll

variable {cfg : RelayConfig} {user : UserId} {s : RelayState} {p : PollCalls} {r' : RelayFuture}
  {effects : List Effect}

/-- A poll records what was not yet reported, whether or not it is the last one. -/
theorem recorded_of_pollCase (hstats : cfg.stats = some user) (h : PollCase cfg s p r' effects) :
    uploaded effects = r'.state.aToB.amt - s.reportedUp ∧
      downloaded effects = r'.state.bToA.amt - s.reportedDown := by
  cases h with
  | upFailed _ _ => exact recorded_finalReport hstats _
  | downFailed _ _ => exact recorded_finalReport hstats _
  | suspended _ _ _ =>
      simp only [settle_buffers]
      exact recorded_settle hstats _ _ _ _
  | @ended aToB bToA s' _ _ hend =>
      obtain ⟨hrecordedUp, hrecordedDown⟩ := recorded_settle hstats p.now s aToB bToA
      obtain ⟨hcountUp, hcountDown⟩ := reported_settle hstats p.now s aToB bToA
      have hframe := checkTermination_frame p.now (settle cfg p.now s aToB bToA).1
      rw [hend] at hframe
      simp only [settle_buffers, hcountUp, hcountDown] at hframe
      obtain ⟨haToB, hbToA, -, hup', hdown', -⟩ := hframe
      obtain ⟨hfinalUp, hfinalDown⟩ := recorded_finalReport hstats s'
      rw [haToB, hup'] at hfinalUp
      rw [hbToA, hdown'] at hfinalDown
      rw [uploaded_append, downloaded_append, hrecordedUp, hrecordedDown, hfinalUp, hfinalDown,
        haToB, hbToA]
      omega

theorem reported_of_suspended (hstats : cfg.stats = some user) (h : PollCase cfg s p r' effects)
    (hpending : r'.returned = none) :
    r'.state.reportedUp = max s.reportedUp r'.state.aToB.amt ∧
      r'.state.reportedDown = max s.reportedDown r'.state.bToA.amt := by
  cases h with
  | suspended _ _ _ =>
      simp only [settle_buffers]
      exact reported_settle hstats _ _ _ _
  | _ => cases hpending

theorem amt_le_of_pollCase (hup : s.aToB.WellFormed) (hdown : s.bToA.WellFormed)
    (h : PollCase cfg s p r' effects) :
    s.aToB.amt ≤ r'.state.aToB.amt ∧ s.bToA.amt ≤ r'.state.bToA.amt := by
  obtain ⟨⟨_, hpolled⟩, hother⟩ := buffers_cases h
  refine ⟨amt_le_of_polled hup hpolled, ?_⟩
  rcases hother with ⟨hsame, -⟩ | ⟨_, hpolled'⟩
  · exact Nat.le_of_eq (congrArg amt hsame.symm)
  · exact amt_le_of_polled hdown hpolled'

end Poll

theorem AccountingInv.step {cfg : RelayConfig} {user : UserId} (hstats : cfg.stats = some user)
    {trace : Trace} {r r' : RelayFuture} {p : PollCalls} {effects : List Effect}
    (hinv : RelayInv cfg trace r) (h : AccountingInv trace r)
    (hstep : r.step cfg p = some (r', effects)) :
    AccountingInv (trace ++ [(p, effects)]) r' := by
  obtain ⟨hrunning, hcase⟩ := RelayFuture.step_cases hstep
  obtain ⟨hrecordedUp, hrecordedDown⟩ := recorded_of_pollCase hstats hcase
  obtain ⟨hleUp, hleDown⟩ := amt_le_of_pollCase hinv.up.wellFormed hinv.down.wellFormed hcase
  have hreportedUp := h.reportedUp hrunning
  have hreportedDown := h.reportedDown hrunning
  refine ⟨?_, ?_, ?_, ?_⟩
  · rw [effectsOf_snoc, uploaded_append, h.uploaded, hrecordedUp]
    omega
  · rw [effectsOf_snoc, downloaded_append, h.downloaded, hrecordedDown]
    omega
  · intro hpending
    rw [(reported_of_suspended hstats hcase hpending).1]
    omega
  · intro hpending
    rw [(reported_of_suspended hstats hcase hpending).2]
    omega

theorem accountingInv_run {cfg : RelayConfig} {user : UserId} (hstats : cfg.stats = some user)
    {now : Nat} {polls : List PollCalls} {r : RelayFuture} {trace : Trace}
    (hrun : copyBidirectionalWithStats cfg now polls = some (r, trace)) :
    RelayInv cfg trace r ∧ AccountingInv trace r := by
  refine StepMachine.run_induction (P := fun trace r =>
    RelayInv cfg trace r ∧ AccountingInv trace r)
    (run_of_copyBidirectionalWithStats hrun) ?_ ?_
  · exact ⟨relayInv_start cfg now, rfl, rfl, fun _ => rfl, fun _ => rfl⟩
  · rintro trace r p r' effects ⟨hinv, h⟩ hstep
    exact ⟨hinv.step hstep, h.step hstats hinv hstep⟩

/-- The collector has been told exactly the bytes accepted, at every point where
the relay is suspended and when it returns, whatever it returns. -/
theorem relay_accounting_exact (cfg : RelayConfig) (user : UserId) (now : Nat)
    (polls : List PollCalls) (r : RelayFuture) (trace : Trace)
    (hstats : cfg.stats = some user)
    (hrun : copyBidirectionalWithStats cfg now polls = some (r, trace)) :
    uploaded (effectsOf trace) = (acceptedBytes (upCalls trace)).length ∧
      downloaded (effectsOf trace) = (acceptedBytes (downCalls trace)).length := by
  obtain ⟨hinv, haccounting⟩ := accountingInv_run hstats hrun
  constructor
  · rw [haccounting.uploaded, hinv.up.amt]
  · rw [haccounting.downloaded, hinv.down.amt]

/-- The remote takes two of three bytes and stalls, and then its reader fails. -/
def resetAfterUpload : PollCalls where
  now := 0
  up :=
    [.pollFlush (.ready (.ok ())),
     .pollRead 4 (.ready (.ok [1, 2, 3])),
     .pollWrite [1, 2, 3] (.ready (.ok 2)),
     .pollWrite [3] .pending,
     .pollRead 1 .pending]
  down :=
    [.pollFlush (.ready (.ok ())),
     .pollRead 4 (.ready (.error ⟨.connectionReset, "reset"⟩))]

theorem relay_accounting_exact_reset :
    ∃ r trace, copyBidirectionalWithStats ⟨30, 2, 5, 4, some 7⟩ 0 [resetAfterUpload] =
        some (r, trace) ∧
      r.returned = some (.error ⟨.connectionReset, "reset"⟩) ∧
      effectsOf trace = [.recordUpload 7 2] ∧
      uploaded (effectsOf trace) = (acceptedBytes (upCalls trace)).length :=
  ⟨_, _, rfl, rfl, rfl,
    (relay_accounting_exact ⟨30, 2, 5, 4, some 7⟩ 7 0 [resetAfterUpload] _ _ rfl rfl).1⟩

end TrojanServer.RelayAccounting
