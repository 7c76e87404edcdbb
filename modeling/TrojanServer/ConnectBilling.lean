import TrojanServer.ConnectUpload
import TrojanServer.RelayAccounting

namespace TrojanServer.ConnectSession

open TrojanServer.AsyncIo
open TrojanServer.Relay
open TrojanServer.RelayAccounting
open TrojanServer.RelayIntegrity
open TrojanServer.StepMachine

/-- The total passed to `record_upload`. -/
def billed (trace : Trace) : Nat := uploaded (trace.flatMap fun entry => entry.2)

def Event.written : Event → List UInt8
  | .write _ slice (.ready (.ok n)) => slice.take n
  | _ => []

/-- What the remote takes during the `write_all` of the initial payload. -/
def written (events : List Event) : List UInt8 := events.flatMap Event.written

/-- The number of bytes the remote takes from the relay. -/
def relayed (trace : Trace) : Nat := (acceptedBytes (upCalls (relayTrace trace))).length

section Invariant

variable {cfg : RelayConfig} {initialPayload : List UInt8} {before trace : Trace} {s s' : Session}
  {event : Event} {effects : List Effect}

@[simp] theorem billed_snoc (before : Trace) (event : Event) (effects : List Effect) :
    billed (before ++ [(event, effects)]) = billed before + uploaded effects := by
  simp [billed]

theorem relayed_snoc_poll (before : Trace) (calls : PollCalls) (effects : List Effect) :
    relayed (before ++ [(.poll calls, effects)]) =
      relayed before + (acceptedBytes calls.up).length := by
  rw [relayed, relayTrace_snoc_poll, upCalls_snoc, acceptedBytes_append, List.length_append]
  rfl

/-- The payload is billed whole, and what the relay carries is billed as it is taken. -/
structure Ledger (initialPayload : List UInt8) (trace : Trace) : Prop where
  billed : billed trace = initialPayload.length + relayed trace
  forwarded : (forwarded trace).length = (written (trace.map Prod.fst)).length + relayed trace

/-- How far the payload has been written. -/
def Progress (cfg : RelayConfig) (initialPayload : List UInt8) (trace : Trace) : Session → Prop
  | .writing _ rest => written (trace.map Prod.fst) ++ rest = initialPayload ∧
      relayTrace trace = []
  | .relaying user r => written (trace.map Prod.fst) = initialPayload ∧
      RelayInv (relayConfig cfg user) (relayTrace trace) r ∧ AccountingInv (relayTrace trace) r
  | .closed => written (trace.map Prod.fst) <+: initialPayload
  | _ => False

theorem Progress.prefixed (h : Progress cfg initialPayload trace s) :
    written (trace.map Prod.fst) <+: initialPayload := by
  cases s with
  | writing user rest => exact ⟨rest, h.1⟩
  | relaying user r => exact h.1 ▸ List.prefix_rfl
  | closed => exact h
  | reading r => exact h.elim
  | requested payload => exact h.elim

/-- Outside the relay nothing is billed once the session is connected. -/
theorem Ledger.quiet (h : Ledger initialPayload before) (hother : ∀ calls, event ≠ .poll calls)
    (haccepted : event.accepted = event.written) :
    Ledger initialPayload (before ++ [(event, [])]) := by
  have hrelayed : relayed (before ++ [(event, [])]) = relayed before := by
    rw [relayed, relayTrace_snoc_other _ _ hother, relayed]
  have hwritten : written ((before ++ [(event, ([] : List Effect))]).map Prod.fst) =
      written (before.map Prod.fst) ++ event.written := by
    simp [written]
  constructor
  · rw [billed_snoc, hrelayed, h.billed]
    rfl
  · rw [forwarded_snoc, hrelayed, hwritten, List.length_append, List.length_append, h.forwarded,
      haccepted, Nat.add_right_comm]

theorem progress_startRelay (user : UserId) (now : Nat)
    (hwritten : written (trace.map Prod.fst) = initialPayload) (hrelay : relayTrace trace = []) :
    Progress cfg initialPayload trace (startRelay cfg user now) := by
  refine ⟨hwritten, ?_, ?_⟩
  · rw [hrelay]
    exact relayInv_start _ _
  · rw [hrelay]
    exact ⟨rfl, rfl, fun _ => rfl, fun _ => rfl⟩

theorem billing_poll {user : UserId} {r r' : RelayFuture} {calls : PollCalls}
    (h : Ledger initialPayload before)
    (hprogress : Progress cfg initialPayload before (.relaying user r))
    (hpoll : r.step (relayConfig cfg user) calls = some (r', effects)) :
    Ledger initialPayload (before ++ [(.poll calls, effects)]) ∧
      Progress cfg initialPayload (before ++ [(.poll calls, effects)]) (.relaying user r') := by
  obtain ⟨hwritten, hrelay, haccounting⟩ := hprogress
  have hrelay' := hrelay.step hpoll
  have haccounting' := haccounting.step rfl hrelay hpoll
  have hwritten' : written ((before ++ [(Event.poll calls, effects)]).map Prod.fst) =
      written (before.map Prod.fst) := by
    simp [written, Event.written]
  have hbefore := haccounting.uploaded.trans hrelay.up.amt
  have hafter := haccounting'.uploaded.trans hrelay'.up.amt
  rw [effectsOf_snoc, uploaded_append, hbefore, upCalls_snoc, acceptedBytes_append,
    List.length_append] at hafter
  have hbilled : uploaded effects = (acceptedBytes calls.up).length := Nat.add_left_cancel hafter
  refine ⟨⟨?_, ?_⟩, hwritten'.trans hwritten, ?_, ?_⟩
  · rw [billed_snoc, relayed_snoc_poll, h.billed, hbilled, Nat.add_assoc]
  · rw [forwarded_snoc, List.length_append, relayed_snoc_poll, h.forwarded, hwritten',
      Nat.add_assoc]
    rfl
  · rw [relayTrace_snoc_poll]
    exact hrelay'
  · rw [relayTrace_snoc_poll]
    exact haccounting'

theorem billing_step (h : Ledger initialPayload before)
    (hprogress : Progress cfg initialPayload before s)
    (hstep : s.step cfg event = some (s', effects)) :
    Ledger initialPayload (before ++ [(event, effects)]) ∧
      Progress cfg initialPayload (before ++ [(event, effects)]) s' := by
  cases session_cases hstep with
  | read _ => exact hprogress.elim
  | bare _ _ => exact hprogress.elim
  | payload _ _ _ => exact hprogress.elim
  | blocked user rest now =>
      refine ⟨h.quiet (by simp) rfl, ?_, ?_⟩
      · simpa [written, Event.written] using hprogress.1
      · exact relayTrace_snoc_nil (by simp) hprogress.2
  | failed user rest now result hfailed =>
      have hnone : (Event.write now rest (.ready result)).written = [] := by
        cases result <;> exact hfailed
      refine ⟨h.quiet (by simp) (hfailed.trans hnone.symm), ?_⟩
      change written _ <+: _
      simpa [written, hnone] using hprogress.prefixed
  | wrote _ _ user now =>
      refine ⟨h.quiet (by simp) rfl, ?_, ?_⟩
      · simpa [written, Event.written] using hprogress.1
      · exact relayTrace_snoc_nil (by simp) hprogress.2
  | written user rest now =>
      refine ⟨h.quiet (by simp) rfl, progress_startRelay user now ?_ ?_⟩
      · simpa [written, Event.written] using hprogress.1
      · exact relayTrace_snoc_nil (by simp) hprogress.2
  | poll hpoll => exact billing_poll h hprogress hpoll
  | close _ =>
      refine ⟨h.quiet (by simp) rfl, ?_⟩
      change written _ <+: _
      simpa [written, Event.written] using hprogress.prefixed

theorem billing_connected {user : UserId} {now : Nat}
    (hstep : (Session.requested initialPayload).step cfg (.connected user now) =
      some (s, effects)) :
    Ledger initialPayload [(.connected user now, effects)] ∧
      Progress cfg initialPayload [(.connected user now, effects)] s := by
  cases session_cases hstep with
  | bare _ _ => exact ⟨⟨rfl, rfl⟩, progress_startRelay user now rfl rfl⟩
  | payload _ _ _ =>
      refine ⟨⟨?_, rfl⟩, rfl, rfl⟩
      simp [billed, uploaded, uploadBytes, relayed, relayTrace, upCalls]

theorem billing_run {user : UserId} {now : Nat} {events : List Event}
    (hrun : run (Session.step cfg) (.requested initialPayload) (.connected user now :: events) =
      some (s, trace)) :
    Ledger initialPayload trace ∧ Progress cfg initialPayload trace s := by
  obtain ⟨s₁, effects, rest, hstep, hrest, rfl⟩ := of_run_cons hrun
  refine run_induction (P := fun rest s =>
    Ledger initialPayload ((.connected user now, effects) :: rest) ∧
      Progress cfg initialPayload ((.connected user now, effects) :: rest) s) hrest
    (billing_connected hstep) ?_
  rintro rest s event s' effects' ⟨h, hprogress⟩ hnext
  exact billing_step h hprogress hnext

end Invariant

/-- Wherever a session that reached the relay stands or ends, its bill is the number of
bytes the remote accepted exactly if the whole initial payload was among them. -/
theorem upload_billed_exactly_iff {cfg : RelayConfig} {initialPayload : List UInt8}
    {user : UserId} {now : Nat} {events : List Event} {s : Session} {trace : Trace}
    (hrun : run (Session.step cfg) (.requested initialPayload) (.connected user now :: events) =
      some (s, trace)) :
    billed trace = (forwarded trace).length ↔ written events = initialPayload := by
  obtain ⟨hledger, hprogress⟩ := billing_run hrun
  have hwritten := hprogress.prefixed
  have hevents : written (trace.map Prod.fst) = written events := by
    rw [map_fst_of_run hrun]
    rfl
  rw [hevents] at hwritten
  rw [hledger.billed, hledger.forwarded, hevents, Nat.add_right_cancel_iff]
  constructor
  · intro hlength
    exact hwritten.eq_of_length hlength.symm
  · intro hall
    rw [hall]

/-- One byte is written ahead of the relay, which uploads two more before the remote
resets the connection. -/
theorem upload_billed_until_reset :
    ∃ s trace, run (Session.step ⟨30, 2, 5, 4, none⟩) (.requested [7])
        [.connected 5 0, .write 0 [7] (.ready (.ok 1)), .poll resetAfterUpload] =
          some (s, trace) ∧
      billed trace = 3 ∧ billed trace = (forwarded trace).length := by
  obtain ⟨s, trace, hrun, hbilled⟩ :
      ∃ s trace, run (Session.step ⟨30, 2, 5, 4, none⟩) (.requested [7])
          [.connected 5 0, .write 0 [7] (.ready (.ok 1)), .poll resetAfterUpload] =
            some (s, trace) ∧ billed trace = 3 :=
    ⟨_, _, rfl, rfl⟩
  exact ⟨s, trace, hrun, hbilled, (upload_billed_exactly_iff hrun).mpr rfl⟩

/-- The remote takes one byte of two and resets the connection: both are billed. -/
theorem failed_write_billed_in_full :
    ∃ trace, run (Session.step ⟨30, 2, 5, 4, none⟩) (.requested [7, 8])
        [.connected 5 0, .write 0 [7, 8] (.ready (.ok 1)),
          .write 0 [8] (.ready (.error ⟨.connectionReset, "reset"⟩))] = some (.closed, trace) ∧
      billed trace = 2 ∧ forwarded trace = [7] :=
  ⟨_, rfl, rfl, rfl⟩

end TrojanServer.ConnectSession
