import TrojanServer.Streaks
import TrojanServer.UdpDatagrams
import TrojanServer.UdpOutbound

namespace TrojanServer.UdpAssociate

open TrojanServer.StepMachine
open TrojanServer.Streaks

variable {H : Type}

/-- The packet was written and the write failed. -/
def SendFailed (_ : List (PacketLog H)) (log : PacketLog H) : Prop :=
  log.write.isSome = true ∧ log.upload = none

/-- The packet was rejected, or had no connection to be written on. -/
def NotSent (log : PacketLog H) : Prop := log.write = none

/-- What a packet does to the count of failed sends. -/
inductive SendCase (a : Association H) (log : PacketLog H) (a' : Association H) : Prop
  | notSent (hwrite : log.write = none) (hcount : a'.sendErrors = a.sendErrors)
      (hgoOn : a'.giveUp = false)
  | sent (hwrite : log.write.isSome = true) (hupload : log.upload.isSome = true)
      (hcount : a'.sendErrors = 0) (hgoOn : a'.giveUp = false)
  | failed (hwrite : log.write.isSome = true) (hupload : log.upload = none)
      (hcount : a'.sendErrors = a.sendErrors + 1)
      (hgiveUp : a'.giveUp = decide (udpMaxConsecutiveErrors ≤ a.sendErrors + 1))

theorem cacheRoute_errors (a : Association H) (i : PacketIn H) :
    (a.cacheRoute i).sendErrors = a.sendErrors ∧ (a.cacheRoute i).giveUp = a.giveUp := by
  unfold Association.cacheRoute
  split <;> exact ⟨rfl, rfl⟩

section Step

variable [DecidableEq H] {o : Outbounds H} {a a' : Association H} {i : PacketIn H}
  {log : PacketLog H}

theorem selectConn_errors (o : Outbounds H) (a : Association H)
    (outbound : Hooks.OutboundType H) (dial : Except String Unit) :
    (selectConn o a outbound dial).assoc.sendErrors = a.sendErrors ∧
      (selectConn o a outbound dial).assoc.giveUp = a.giveUp := by
  have hcase := selectConn_cases o a outbound dial
  generalize selectConn o a outbound dial = selected at hcase ⊢
  cases hcase <;> exact ⟨rfl, rfl⟩

theorem sendCase_of_step (h : a.step o i = some (a', log)) :
    a.giveUp = false ∧ SendCase a log a' := by
  unfold Association.step at h
  split at h
  · cases h
  rename_i hgoing
  have hgoing := Bool.eq_false_iff.mpr hgoing
  obtain ⟨hcached, hcachedUp⟩ := cacheRoute_errors a i
  obtain ⟨herrors, hgiveUp⟩ :=
    selectConn_errors o (a.cacheRoute i) (a.routeFor i).outbound i.dial
  rw [hcached] at herrors
  rw [hcachedUp, hgoing] at hgiveUp
  refine ⟨hgoing, ?_⟩
  simp only at h
  split at h
  · cases h
    unfold sendPacket
    split
    · exact .notSent rfl herrors hgiveUp
    · split
      · exact .sent rfl rfl rfl hgiveUp
      · exact .failed rfl rfl (by rw [herrors]) (by rw [herrors])
  · cases h
    exact .notSent rfl herrors hgiveUp

theorem step_ne_none (h : a.giveUp = false) : a.step o i ≠ none := by
  unfold Association.step
  rw [h]
  simp only [Bool.false_eq_true, if_false]
  split <;> simp

end Step

/-- The count of failed sends, and what it means. -/
structure SendInv (logs : List (PacketLog H)) (a : Association H) : Prop where
  counts : Counts SendFailed NotSent logs a.sendErrors
  giveUp : a.giveUp = true ↔ udpMaxConsecutiveErrors ≤ a.sendErrors

theorem SendInv.step {logs : List (PacketLog H)} {a a' : Association H} {log : PacketLog H}
    (h : SendInv logs a) (hgoes : a.giveUp = false) (hcase : SendCase a log a') :
    SendInv (logs ++ [log]) a' := by
  have hfew : a.sendErrors < udpMaxConsecutiveErrors := by
    refine Nat.lt_of_not_le fun hmany => ?_
    rw [h.giveUp.mpr hmany] at hgoes
    cases hgoes
  cases hcase with
  | notSent hwrite hcount hgoOn =>
      refine ⟨?_, ?_⟩
      · rw [hcount]
        refine h.counts.gap ?_ hwrite
        rintro ⟨hsome, -⟩
        rw [hwrite] at hsome
        cases hsome
      · rw [hgoOn, hcount]
        exact iff_of_false (by simp) (Nat.not_le_of_lt hfew)
  | sent hwrite hupload hcount hgoOn =>
      refine ⟨?_, ?_⟩
      · rw [hcount]
        apply counts_reset
        · rintro ⟨-, hnone⟩
          rw [hnone] at hupload
          cases hupload
        · intro hnone
          rw [NotSent] at hnone
          rw [hnone] at hwrite
          cases hwrite
      · rw [hgoOn, hcount]
        exact iff_of_false (by simp) (by decide)
  | failed hwrite hupload hcount hgiveUp =>
      rw [← hcount] at hgiveUp
      refine ⟨?_, by rw [hgiveUp, decide_eq_true_iff]⟩
      rw [hcount]
      exact h.counts.mark ⟨hwrite, hupload⟩

theorem sendInv_of_run [DecidableEq H] {o : Outbounds H} {inputs : List (PacketIn H)}
    {a : Association H} {session : Session H}
    (hrun : handleUdpAssociate o inputs = some (a, session)) :
    SendInv (session.map Prod.snd) a := by
  refine run_induction (P := fun session a => SendInv (session.map Prod.snd) a) hrun
    ⟨counts_nil, by simp [Association.start, udpMaxConsecutiveErrors]⟩ ?_
  intro session a i a' log h hstep
  obtain ⟨hgoes, hcase⟩ := sendCase_of_step hstep
  rw [List.map_append]
  exact h.step hgoes hcase

end TrojanServer.UdpAssociate

namespace TrojanServer.UdpSession

open TrojanServer.FrameDecoding
open TrojanServer.Protocol
open TrojanServer.StepMachine
open TrojanServer.Streaks
open TrojanServer.UdpAssociate

section History

variable {H : Type}

def RecvFailed (_ : List Event) (event : Event) : Prop :=
  ∃ message written now, event = .reply (.error message) written now

def NoReply (event : Event) : Prop := ∀ received written now, event ≠ .reply received written now

/-- When packets were forwarded; the first has number `k`. -/
def forwardTimes (w : World H) (k : Nat) (ps : List (TrojanUdpPacket × PacketLog H)) : List Nat :=
  (ps.zipIdx k).filterMap fun (p, i) => if p.2.upload.isSome then some (w.answers i).now else none

def deliveryTime : Event → Option Nat
  | .reply (.ok _) (.ok ()) now => some now
  | _ => none

/-- When datagrams were forwarded or delivered. -/
def activityTimes (w : World H) (k : Nat) : Trace H → List Nat
  | [] => []
  | (event, round) :: trace =>
      forwardTimes w k round.packets ++ (deliveryTime event).toList ++
        activityTimes w (k + round.packets.length) trace

/-- In seconds from the start of the session, which counts as activity. -/
def lastActivity (w : World H) (trace : Trace H) : Nat := (activityTimes w 0 trace).getLastD 0

/-- The last round was a tick, too late for the last activity before it. -/
def Idle (w : World H) (trace : Trace H) : Prop :=
  ∃ before now round, trace = before ++ [(.idleTick now, round)] ∧
    w.idleTimeoutSecs ≤ now - lastActivity w before

variable {w : World H} {event : Event} {round : Round H} {trace : Trace H}

theorem getLastD_append {α : Type*} (xs ys : List α) (a : α) :
    (xs ++ ys).getLastD a = ys.getLastD (xs.getLastD a) := by
  rw [List.getLastD_eq_getLast?, List.getLast?_append, Option.getD_or, List.getLastD_eq_getLast?,
    List.getLastD_eq_getLast?]

theorem forwardTimes_cons (k : Nat) (p : TrojanUdpPacket × PacketLog H)
    (ps : List (TrojanUdpPacket × PacketLog H)) (last : Nat) :
    (forwardTimes w k (p :: ps)).getLastD last = (forwardTimes w (k + 1) ps).getLastD
      (if p.2.upload.isSome then (w.answers k).now else last) := by
  rw [forwardTimes, List.zipIdx_cons, List.filterMap_cons]
  by_cases hforwarded : p.2.upload.isSome = true
  · simp only [if_pos hforwarded]
    exact getLastD_append [_] _ _
  · simp only [if_neg hforwarded]
    rfl

theorem activityTimes_snoc (w : World H) (k : Nat) (trace : Trace H) (event : Event)
    (round : Round H) :
    activityTimes w k (trace ++ [(event, round)]) = activityTimes w k trace ++
      (forwardTimes w (k + (packets trace).length) round.packets ++
        (deliveryTime event).toList) := by
  induction trace generalizing k with
  | nil => simp [activityTimes, packets]
  | cons entry trace ih =>
      obtain ⟨event', round'⟩ := entry
      rw [List.cons_append, activityTimes, ih, activityTimes]
      simp [packets, Nat.add_assoc]

theorem lastActivity_snoc (w : World H) (trace : Trace H) (event : Event) (round : Round H) :
    lastActivity w (trace ++ [(event, round)]) = (deliveryTime event).toList.getLastD
      ((forwardTimes w (packets trace).length round.packets).getLastD (lastActivity w trace)) := by
  rw [lastActivity, activityTimes_snoc, getLastD_append, getLastD_append, Nat.zero_add]
  rfl

theorem lastActivity_snoc_quiet (hpackets : round.packets = [])
    (hdelivery : deliveryTime event = none) :
    lastActivity w (trace ++ [(event, round)]) = lastActivity w trace := by
  rw [lastActivity_snoc, hpackets, hdelivery]
  rfl

theorem idle_snoc_iff : Idle w (trace ++ [(event, round)]) ↔
    ∃ now, event = .idleTick now ∧ w.idleTimeoutSecs ≤ now - lastActivity w trace := by
  constructor
  · rintro ⟨before, now, round', heq, hlate⟩
    obtain ⟨rfl, hlast⟩ := List.append_inj' heq rfl
    cases hlast
    exact ⟨now, rfl, hlate⟩
  · rintro ⟨now, rfl, hlate⟩
    exact ⟨trace, now, round, rfl, hlate⟩

end History

variable {H : Type} [DecidableEq H] {w : World H} {s s' : Session H} {event : Event}
  {round : Round H} {trace : Trace H}

section Loop

/-- What the loop over the buffer does to a session that has not given up. -/
structure Processed (w : World H) (s : Session H)
    (r : Session H × List (TrojanUdpPacket × PacketLog H)) : Prop where
  gaveUp : r.1.ended = some .sendErrors ↔ r.1.assoc.giveUp = true
  active : r.1.lastActivitySecs = (forwardTimes w s.handled r.2).getLastD s.lastActivitySecs
  recvErrors : r.1.recvErrors = s.recvErrors
  cause : r.1.ended ≠ some .recvErrors ∧ r.1.ended ≠ some .idleTimeout

omit [DecidableEq H] in
theorem processed_stop {cause : Option SessionEnd} {rest : List UInt8}
    (hgiveUp : s.assoc.giveUp = false)
    (hcause : cause = none ∨ ∃ message, cause = some (.invalidPacket message)) :
    Processed w s ({ s with readBuf := rest, ended := cause }, []) := by
  refine ⟨?_, rfl, rfl, ?_⟩
  · refine iff_of_false ?_ (by simp [hgiveUp])
    rcases hcause with rfl | ⟨message, rfl⟩ <;> simp
  · rcases hcause with rfl | ⟨message, rfl⟩ <;> simp

omit [DecidableEq H] in
/-- One packet, and what the rest of the loop does. -/
theorem Processed.cons {packet : TrojanUdpPacket} {log : PacketLog H}
    {r : Session H × List (TrojanUdpPacket × PacketLog H)}
    (hrest : Processed w s' r) (hhandled : s'.handled = s.handled + 1)
    (hactive : s'.lastActivitySecs =
      if log.upload.isSome then (w.answers s.handled).now else s.lastActivitySecs)
    (hrecv : s'.recvErrors = s.recvErrors) :
    Processed w s (r.1, (packet, log) :: r.2) where
  gaveUp := hrest.gaveUp
  active := by rw [hrest.active, forwardTimes_cons, hactive, hhandled]
  recvErrors := hrest.recvErrors.trans hrecv
  cause := hrest.cause

theorem processed_of_processPackets (w : World H) (fuel : Nat) (s : Session H)
    (hended : s.ended = none) (hgiveUp : s.assoc.giveUp = false) :
    Processed w s (processPackets w fuel s) := by
  induction fuel generalizing s with
  | zero => exact processed_stop hgiveUp (.inl hended)
  | succ fuel ih =>
      simp only [processPackets]
      split
      · exact processed_stop hgiveUp (.inl hended)
      split
      · exact processed_stop hgiveUp (.inl hended)
      · exact processed_stop hgiveUp (.inr ⟨_, rfl⟩)
      · rename_i packet consumed rest hdecode
        split
        · rename_i hnone
          exact absurd hnone (step_ne_none hgiveUp)
        · rename_i assoc log hstep
          split
          · rename_i hgave
            let last : Session H := { s with
              readBuf := rest
              assoc := assoc
              handled := s.handled + 1
              lastActivitySecs := if log.upload.isSome then (w.answers s.handled).now
                else s.lastActivitySecs }
            have hlast : Processed w last ({ last with ended := some .sendErrors }, []) :=
              ⟨iff_of_true rfl hgave, rfl, rfl, by simp⟩
            exact hlast.cons rfl rfl rfl
          · rename_i hgoes
            refine Processed.cons (ih _ hended ?_) rfl rfl rfl
            exact Bool.eq_false_iff.mpr hgoes

end Loop

section Session

/-- What the history says about why the session goes on, or gave up. -/
structure EndInv (w : World H) (trace : Trace H) (s : Session H) : Prop where
  associated : Associated w trace s
  gaveUp : s.ended = some .sendErrors ↔ s.assoc.giveUp = true
  recvs : s.ended = none → Counts RecvFailed NoReply (trace.map Prod.fst) s.recvErrors ∧
    s.recvErrors < udpMaxConsecutiveErrors
  stopped : s.ended = some .recvErrors ↔
    Streak RecvFailed NoReply (trace.map Prod.fst) udpMaxConsecutiveErrors
  active : s.ended = none → s.lastActivitySecs = lastActivity w trace
  idle : s.ended = some .idleTimeout ↔ Idle w trace

theorem endInv_start (initial : List UInt8) : EndInv w [] (Session.start H initial) where
  associated := associated_start w initial
  gaveUp := by simp [Session.start, Association.start]
  recvs := fun _ => ⟨counts_nil, Nat.succ_pos 7⟩
  stopped := iff_of_false (by simp [Session.start]) not_streak_nil
  active := fun _ => rfl
  idle := iff_of_false (by simp [Session.start]) (by simp [Idle])

theorem EndInv.going (h : EndInv w trace s) (hended : s.ended = none) : s.assoc.giveUp = false := by
  rw [← Bool.not_eq_true, ← h.gaveUp, hended]
  simp

/-- The count of failed receives after a round that was none. -/
theorem EndInv.counts_noReply (h : EndInv w trace s) (hended : s.ended = none)
    (hreply : NoReply event) :
    Counts RecvFailed NoReply ((trace ++ [(event, round)]).map Prod.fst) s.recvErrors := by
  rw [List.map_append]
  refine (h.recvs hended).1.gap ?_ hreply
  rintro ⟨message, written, now, rfl⟩
  exact hreply _ _ _ rfl

theorem EndInv.no_streak (h : EndInv w trace s) (hended : s.ended = none)
    (hreply : NoReply event) :
    ¬ Streak RecvFailed NoReply ((trace ++ [(event, round)]).map Prod.fst)
      udpMaxConsecutiveErrors := by
  intro hstreak
  have hmany := (h.counts_noReply hended hreply _).mp hstreak
  exact Nat.not_le_of_lt (h.recvs hended).2 hmany

/-- A round that processes the buffer. -/
theorem EndInv.process {base : Session H} {bytes : List UInt8} (h : EndInv w trace s)
    (hassociated : Associated w (trace ++ [(event, (base.process w bytes).2)])
      (base.process w bytes).1)
    (hended : s.ended = none) (hreply : NoReply event) (hevent : ∀ now, event ≠ .idleTick now)
    (hdelivery : deliveryTime event = none)
    (hbase : base = { s with readBuf := base.readBuf, pendingBuffered := base.pendingBuffered }) :
    EndInv w (trace ++ [(event, (base.process w bytes).2)]) (base.process w bytes).1 := by
  have hprocessed : Processed w base (processPackets w base.readBuf.length base) :=
    processed_of_processPackets w _ base (by rw [hbase, ← hended])
      (by rw [hbase]; exact h.going hended)
  have hrecv : (base.process w bytes).1.recvErrors = s.recvErrors :=
    hprocessed.recvErrors.trans (by rw [hbase])
  refine ⟨hassociated, hprocessed.gaveUp, ?_, ?_, ?_, ?_⟩
  · intro _
    rw [hrecv]
    exact ⟨h.counts_noReply hended hreply, (h.recvs hended).2⟩
  · exact iff_of_false hprocessed.cause.1 (h.no_streak hended hreply)
  · intro _
    rw [lastActivity_snoc, hdelivery, ← h.active hended, ← h.associated.handled]
    exact hprocessed.active.trans (by rw [hbase]; rfl)
  · refine iff_of_false hprocessed.cause.2 (idle_snoc_iff.not.mpr ?_)
    rintro ⟨now, rfl, -⟩
    exact hevent now rfl

/-- A round that ends the session, for another reason than failed sends or receives. -/
theorem EndInv.quit {cause : SessionEnd} (h : EndInv w trace s) (hended : s.ended = none)
    (hreply : NoReply event) (hsend : cause ≠ .sendErrors) (hrecv : cause ≠ .recvErrors)
    (hidle : cause = .idleTimeout ↔ Idle w (trace ++ [(event, ⟨[], [], []⟩)])) :
    EndInv w (trace ++ [(event, ⟨[], [], []⟩)]) { s with ended := some cause } := by
  refine ⟨h.associated.same rfl rfl rfl, ?_, by simp, ?_, by simp, ?_⟩
  · exact iff_of_false (by simpa using hsend) (by simp [h.going hended])
  · exact iff_of_false (by simpa using hrecv) (h.no_streak hended hreply)
  · rw [Option.some_inj]
    exact hidle

/-- A datagram from the outbound that reached the client. -/
theorem EndInv.delivered {payload : List UInt8} {fromAddr : Hooks.AclAddr} {now : Nat}
    {response : List UInt8} (h : EndInv w trace s) (hended : s.ended = none) :
    EndInv w (trace ++ [(.reply (.ok (payload, fromAddr)) (.ok ()) now, ⟨[], [], response⟩)])
      { s with lastActivitySecs := now, recvErrors := 0 } := by
  have hcounts : Counts RecvFailed NoReply ((trace ++ [(Event.reply (.ok (payload, fromAddr))
      (.ok ()) now, (⟨[], [], response⟩ : Round H))]).map Prod.fst) 0 := by
    rw [List.map_append]
    refine counts_reset ?_ fun hgap => hgap _ _ _ rfl
    rintro ⟨message, written, now, ⟨⟩⟩
  refine ⟨h.associated.same rfl rfl rfl, h.gaveUp, fun _ => ⟨hcounts, Nat.succ_pos 7⟩, ?_, ?_, ?_⟩
  · refine iff_of_false (by simp [hended]) ?_
    rw [hcounts]
    decide
  · intro _
    rw [lastActivity_snoc]
    rfl
  · refine iff_of_false (by simp [hended]) (idle_snoc_iff.not.mpr ?_)
    rintro ⟨now, ⟨⟩, -⟩

/-- A datagram that did not reach the client. -/
theorem EndInv.responseFailed {payload : List UInt8} {fromAddr : Hooks.AclAddr}
    {message : String} {now : Nat} {response : List UInt8} (h : EndInv w trace s)
    (hended : s.ended = none) :
    EndInv w (trace ++ [(.reply (.ok (payload, fromAddr)) (.error message) now,
      ⟨[], [], response⟩)]) { s with ended := some .responseFailed } := by
  refine ⟨h.associated.same rfl rfl rfl, ?_, by simp, ?_, by simp, ?_⟩
  · exact iff_of_false (by simp) (by simp [h.going hended])
  · refine iff_of_false (by simp) ?_
    rw [List.map_append, List.map_singleton, udpMaxConsecutiveErrors, streak_snoc_iff]
    rintro (⟨⟨_, _, _, ⟨⟩⟩, -⟩ | ⟨hgap, -⟩)
    exact hgap _ _ _ rfl
  · refine iff_of_false (by simp) (idle_snoc_iff.not.mpr ?_)
    rintro ⟨now, ⟨⟩, -⟩

/-- A receive that failed, and whether it was one too many. -/
theorem EndInv.recvFailed {message : String} {written : Except String Unit} {now : Nat}
    {cause : Option SessionEnd} (h : EndInv w trace s) (hended : s.ended = none)
    (hcause : cause = none ∧ s.recvErrors + 1 < udpMaxConsecutiveErrors ∨
      cause = some .recvErrors ∧ udpMaxConsecutiveErrors ≤ s.recvErrors + 1) :
    EndInv w (trace ++ [(.reply (.error message) written now, ⟨[], [], []⟩)])
      { s with recvErrors := s.recvErrors + 1, ended := cause } := by
  have hcounts : Counts RecvFailed NoReply ((trace ++ [(Event.reply (.error message) written now,
      (⟨[], [], []⟩ : Round H))]).map Prod.fst) (s.recvErrors + 1) := by
    rw [List.map_append]
    exact (h.recvs hended).1.mark ⟨message, written, now, rfl⟩
  have hother : cause ≠ some .sendErrors ∧ cause ≠ some .idleTimeout := by
    rcases hcause with ⟨rfl, -⟩ | ⟨rfl, -⟩ <;> simp
  refine ⟨h.associated.same rfl rfl rfl, ?_, ?_, ?_, ?_, ?_⟩
  · exact iff_of_false hother.1 (by simp [h.going hended])
  · rintro rfl
    rcases hcause with ⟨-, hfew⟩ | ⟨⟨⟩, -⟩
    exact ⟨hcounts, hfew⟩
  · rw [hcounts]
    rcases hcause with ⟨rfl, hfew⟩ | ⟨rfl, hmany⟩
    · exact iff_of_false (by simp) (Nat.not_le_of_lt hfew)
    · exact iff_of_true rfl hmany
  · intro _
    rw [lastActivity_snoc_quiet rfl rfl, ← h.active hended]
  · refine iff_of_false hother.2 (idle_snoc_iff.not.mpr ?_)
    rintro ⟨now, ⟨⟩, -⟩

theorem EndInv.step (h : EndInv w trace s) (hstep : s.step w event = some (s', round)) :
    EndInv w (trace ++ [(event, round)]) s' := by
  have hassociated := h.associated.step hstep
  obtain ⟨hended, hcase⟩ := roundCase_of_step hstep
  cases hcase with
  | buffered hwaiting =>
      exact h.process hassociated hended (by rintro _ _ _ ⟨⟩) (by rintro _ ⟨⟩) rfl rfl
  | read hbytes hpending hroom =>
      exact h.process hassociated hended (by rintro _ _ _ ⟨⟩) (by rintro _ ⟨⟩) rfl rfl
  | full => exact h.quit hended (by rintro _ _ _ ⟨⟩) (by simp) (by simp) (by simp [idle_snoc_iff])
  | readFailed =>
      exact h.quit hended (by rintro _ _ _ ⟨⟩) (by simp) (by simp) (by simp [idle_snoc_iff])
  | eof => exact h.quit hended (by rintro _ _ _ ⟨⟩) (by simp) (by simp) (by simp [idle_snoc_iff])
  | kicked =>
      exact h.quit hended (by rintro _ _ _ ⟨⟩) (by simp) (by simp) (by simp [idle_snoc_iff])
  | idle hidle =>
      rename_i now
      rw [h.active hended] at hidle
      exact h.quit hended (by rintro _ _ _ ⟨⟩) (by simp) (by simp)
        (iff_of_true rfl (idle_snoc_iff.mpr ⟨now, rfl, hidle⟩))
  | active hactive =>
      rename_i now
      rw [h.active hended] at hactive
      refine ⟨hassociated, h.gaveUp, ?_, ?_, ?_, ?_⟩
      · exact fun _ => ⟨h.counts_noReply hended (by rintro _ _ _ ⟨⟩), (h.recvs hended).2⟩
      · exact iff_of_false (by simp [hended]) (h.no_streak hended (by rintro _ _ _ ⟨⟩))
      · intro _
        rw [lastActivity_snoc_quiet rfl rfl, ← h.active hended]
      · refine iff_of_false (by simp [hended]) (idle_snoc_iff.not.mpr ?_)
        rintro ⟨_, ⟨⟩, hlate⟩
        exact Nat.not_le_of_lt hactive hlate
  | delivered => exact h.delivered hended
  | responseFailed => exact h.responseFailed hended
  | recvFailed message written now hfew => exact h.recvFailed hended (.inl ⟨hended, hfew⟩)
  | recvErrors message written now hmany => exact h.recvFailed hended (.inr ⟨rfl, hmany⟩)

omit [DecidableEq H] in
theorem map_snd_association (w : World H) (k : Nat) (ps : List (TrojanUdpPacket × PacketLog H)) :
    (association w k ps).map Prod.snd = ps.map Prod.snd := by
  rw [association, List.map_map]
  conv_rhs => rw [← List.zipIdx_map_fst k ps, List.map_map]
  rfl

/-- A session gives up on its outbound exactly when its last eight sends, or its last eight
receives, have failed, and on its client exactly at a tick that comes as late as the timeout
after the last datagram forwarded or delivered. -/
theorem session_gives_up_iff {initial : List UInt8} {events : List Event}
    (hrun : handleUdpAssociate w initial events = some (s, trace)) :
    (s.ended = some .sendErrors ↔
        Streak SendFailed NotSent ((packets trace).map Prod.snd) udpMaxConsecutiveErrors) ∧
      (s.ended = some .recvErrors ↔
        Streak RecvFailed NoReply (trace.map Prod.fst) udpMaxConsecutiveErrors) ∧
      (s.ended = some .idleTimeout ↔ Idle w trace) := by
  have hinv : EndInv w trace s :=
    run_induction hrun (endInv_start initial) fun _ _ _ _ _ h hstep => h.step hstep
  obtain ⟨inputs, hassociation⟩ := hinv.associated.run
  have hsends := sendInv_of_run hassociation
  rw [map_snd_association] at hsends
  refine ⟨?_, hinv.stopped, hinv.idle⟩
  rw [hinv.gaveUp, hsends.giveUp, hsends.counts]

theorem session_gives_up_on_dead_outbound :
    ∃ s trace, handleUdpAssociate directWorld twoPackets
        (.buffered :: List.replicate 8 (.reply (.error "gone") (.ok ()) 1)) = some (s, trace) ∧
      Streak RecvFailed NoReply (trace.map Prod.fst) 8 := by
  obtain ⟨s, trace, hrun, hended⟩ : ∃ s trace, handleUdpAssociate directWorld twoPackets
        (.buffered :: List.replicate 8 (.reply (.error "gone") (.ok ()) 1)) = some (s, trace) ∧
      s.ended = some .recvErrors :=
    ⟨_, _, rfl, rfl⟩
  exact ⟨s, trace, hrun, (session_gives_up_iff hrun).2.1.mp hended⟩

end Session

end TrojanServer.UdpSession
