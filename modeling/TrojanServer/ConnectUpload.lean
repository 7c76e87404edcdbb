import TrojanServer.ConnectSession
import TrojanServer.DecoderAgreement
import TrojanServer.RelayIntegrity

namespace TrojanServer.ConnectSession

open TrojanServer.AsyncIo
open TrojanServer.Protocol
open TrojanServer.Protocol.TrojanRequest
open TrojanServer.Relay
open TrojanServer.RelayIntegrity
open TrojanServer.RequestReader
open TrojanServer.StepMachine

section Header

/-- The bytes start with a header of that length, and the parser has seen enough. -/
def Headed (bytes : List UInt8) (n : Nat) : Prop := minSize ≤ bytes.length ∧ IsRequest bytes n

theorem headed_append {bytes : List UInt8} {n : Nat} (h : Headed bytes n) (more : List UInt8) :
    Headed (bytes ++ more) n := by
  refine ⟨?_, isRequest_append h.2 more⟩
  have hmin := h.1
  rw [List.length_append]
  omega

theorem headed_unique {bytes : List UInt8} {n m : Nat} (h : Headed bytes n)
    (h' : IsRequest bytes m) : n = m := by
  have hn := checkComplete_of_isRequest h.1 h.2
  rw [checkComplete_of_isRequest h.1 h'] at hn
  cases hn
  rfl

theorem probe_cases (buf : List UInt8) :
    (Reader.probe buf = ⟨buf, none⟩) ∨
      (∃ rest message, Reader.probe buf = ⟨rest, some (.failed message)⟩) ∨
      ∃ rest request n, Reader.probe buf = ⟨rest, some (.request request)⟩ ∧
        Headed buf n ∧ request.payload = buf.drop n := by
  unfold Reader.probe
  split
  · rcases request_verdicts buf with ⟨hprobe, -⟩ | ⟨message, hprobe, -⟩ |
      ⟨request, n, hprobe, hdecode, -, hpayload⟩
    · simp [hprobe]
    · simp [hprobe]
    · refine .inr (.inr ⟨[], request, n, by simp [hprobe, hdecode], ?_, hpayload⟩)
      exact checkComplete_eq_ok_iff.mp hprobe
  · exact .inl rfl

end Header

section Steps

/-- What one event does to a session. -/
inductive SessionCase (cfg : RelayConfig) : Session → Event → Session × List Effect → Prop
  | read {r r' : Reader} {result : Except IoError (List UInt8)}
      (hread : r.step cfg.bufferSize result = some (r', ())) :
      SessionCase cfg (.reading r) (.read result) (afterRead r', [])
  | bare (user : UserId) (now : Nat) :
      SessionCase cfg (.requested []) (.connected user now) (startRelay cfg user now, [])
  | payload {initialPayload : List UInt8} (hpayload : initialPayload ≠ []) (user : UserId)
      (now : Nat) :
      SessionCase cfg (.requested initialPayload) (.connected user now)
        (.writing user initialPayload, [.recordUpload user initialPayload.length])
  | blocked (user : UserId) (rest : List UInt8) (now : Nat) :
      SessionCase cfg (.writing user rest) (.write now rest .pending) (.writing user rest, [])
  | failed (user : UserId) (rest : List UInt8) (now : Nat) (result : Except IoError Nat)
      (hfailed : (Event.write now rest (.ready result)).accepted = []) :
      SessionCase cfg (.writing user rest) (.write now rest (.ready result)) (.closed, [])
  | wrote {rest : List UInt8} {n : Nat} (hpos : n ≠ 0) (hn : n < rest.length) (user : UserId)
      (now : Nat) :
      SessionCase cfg (.writing user rest) (.write now rest (.ready (.ok n)))
        (.writing user (rest.drop n), [])
  | written (user : UserId) (rest : List UInt8) (now : Nat) :
      SessionCase cfg (.writing user rest) (.write now rest (.ready (.ok rest.length)))
        (startRelay cfg user now, [])
  | poll {user : UserId} {r r' : RelayFuture} {calls : PollCalls} {effects : List Effect}
      (hpoll : r.step (relayConfig cfg user) calls = some (r', effects)) :
      SessionCase cfg (.relaying user r) (.poll calls) (.relaying user r', effects)
  | close {s : Session} (hopen : s ≠ .closed) : SessionCase cfg s .close (.closed, [])

variable {cfg : RelayConfig} {s : Session} {step : Session × List Effect}

theorem write_cases {user : UserId} {rest slice : List UInt8} {now : Nat}
    {result : Poll (Except IoError Nat)}
    (h : (Session.writing user rest).step cfg (.write now slice result) = some step) :
    SessionCase cfg (.writing user rest) (.write now slice result) step := by
  simp only [Session.step] at h
  split at h
  · rename_i hslice
    subst hslice
    rcases result with (e | n) | _
    · cases h
      exact .failed user slice now _ rfl
    · simp only at h
      split at h
      · rename_i hzero
        subst hzero
        cases h
        exact .failed user slice now _ rfl
      rename_i hpos
      split at h
      · rename_i hn
        cases h
        exact .wrote hpos hn user now
      split at h
      · rename_i hall
        subst hall
        cases h
        exact .written user slice now
      · cases h
    · cases h
      exact .blocked user slice now
  · cases h

theorem session_cases {event : Event} (h : s.step cfg event = some step) :
    SessionCase cfg s event step := by
  cases event with
  | read result =>
      cases s with
      | reading r =>
          obtain ⟨⟨r', _⟩, hread, heq⟩ := Option.map_eq_some_iff.mp h
          cases heq
          exact .read hread
      | _ => cases h
  | connected user now =>
      cases s with
      | requested initialPayload =>
          simp only [Session.step] at h
          split at h
          · rename_i hempty
            obtain rfl := List.isEmpty_iff.mp hempty
            cases h
            exact .bare user now
          · rename_i hpayload
            cases h
            exact .payload (by simpa using hpayload) user now
      | _ => cases h
  | write now slice result =>
      cases s with
      | writing user rest => exact write_cases h
      | _ => cases h
  | poll calls =>
      cases s with
      | relaying user r =>
          obtain ⟨⟨r', effects⟩, hpoll, heq⟩ := Option.map_eq_some_iff.mp h
          cases heq
          exact .poll hpoll
      | _ => cases h
  | close =>
      cases s with
      | closed => cases h
      | _ =>
          cases h
          exact .close (by simp)

end Steps

section Invariant

variable {cfg : RelayConfig} {before trace : Trace} {s s' : Session} {event : Event}
  {effects : List Effect}

@[simp] theorem clientBytes_snoc (before : Trace) (event : Event) (effects : List Effect) :
    clientBytes (before ++ [(event, effects)]) = clientBytes before ++ event.received := by
  simp [clientBytes]

@[simp] theorem forwarded_snoc (before : Trace) (event : Event) (effects : List Effect) :
    forwarded (before ++ [(event, effects)]) = forwarded before ++ event.accepted := by
  simp [forwarded]

theorem relayTrace_snoc_poll (before : Trace) (calls : PollCalls) (effects : List Effect) :
    relayTrace (before ++ [(.poll calls, effects)]) = relayTrace before ++ [(calls, effects)] := by
  simp [relayTrace]

theorem relayTrace_snoc_other (before : Trace) {event : Event} (effects : List Effect)
    (h : ∀ calls, event ≠ .poll calls) :
    relayTrace (before ++ [(event, effects)]) = relayTrace before := by
  cases event with
  | poll calls => exact absurd rfl (h calls)
  | _ => simp [relayTrace]

theorem relayTrace_snoc_nil (h : ∀ calls, event ≠ .poll calls) (hnone : relayTrace before = []) :
    relayTrace (before ++ [(event, effects)]) = [] :=
  (relayTrace_snoc_other _ _ h).trans hnone

/-- Behind the header, what was forwarded and what is still held. -/
def Carries (trace : Trace) (held : List UInt8) : Prop :=
  ∃ n, Headed (clientBytes trace) n ∧ forwarded trace ++ held = (clientBytes trace).drop n

/-- The relay took over from these bytes of the client. -/
structure RelayPhase (cfg : RelayConfig) (trace : Trace) (user : UserId) (r : RelayFuture)
    (buf : List UInt8) (n : Nat) : Prop where
  headed : Headed buf n
  client : clientBytes trace = buf ++ returnedBytes (upCalls (relayTrace trace))
  remote : forwarded trace = buf.drop n ++ acceptedBytes (upCalls (relayTrace trace))
  relay : RelayInv (relayConfig cfg user) (relayTrace trace) r

def SessionInv (cfg : RelayConfig) (trace : Trace) : Session → Prop
  | .reading r => r.outcome = none ∧ r.buf = clientBytes trace ∧ forwarded trace = [] ∧
      relayTrace trace = []
  | .requested initialPayload => Carries trace initialPayload ∧ forwarded trace = [] ∧
      relayTrace trace = []
  | .writing _ rest => Carries trace rest ∧ relayTrace trace = []
  | .relaying user r => ∃ buf n, RelayPhase cfg trace user r buf n
  | .closed => forwarded trace = [] ∨ ∃ held, Carries trace held

theorem RelayPhase.carries {user : UserId} {r : RelayFuture} {buf : List UInt8} {n : Nat}
    (h : RelayPhase cfg trace user r buf n) : Carries trace r.state.aToB.unwritten := by
  refine ⟨n, ?_, ?_⟩
  · rw [h.client]
    exact headed_append h.headed _
  · rw [h.client, h.remote, List.drop_append_of_le_length h.headed.2.1, List.append_assoc,
      h.relay.up.streamIntact.bytes]

theorem SessionInv.forwards (h : SessionInv cfg trace s) :
    forwarded trace = [] ∨ ∃ held, Carries trace held := by
  cases s with
  | reading r => exact .inl h.2.2.1
  | requested initialPayload => exact .inl h.2.1
  | writing user rest => exact .inr ⟨rest, h.1⟩
  | relaying user r =>
      obtain ⟨buf, n, hphase⟩ := h
      exact .inr ⟨_, hphase.carries⟩
  | closed => exact h

theorem Carries.write {held : List UInt8} {n now : Nat} (h : Carries before held) :
    Carries (before ++ [(.write now held (.ready (.ok n)), effects)]) (held.drop n) := by
  obtain ⟨m, hheaded, hbytes⟩ := h
  refine ⟨m, by simpa [Event.received] using hheaded, ?_⟩
  rw [forwarded_snoc, clientBytes_snoc, List.append_assoc]
  simpa [Event.accepted, Event.received] using hbytes

/-- The last byte of the payload is written, or there was none. -/
theorem sessionInv_startRelay (user : UserId) (now : Nat) (h : Carries trace [])
    (hrelay : relayTrace trace = []) : SessionInv cfg trace (startRelay cfg user now) := by
  obtain ⟨n, hheaded, hbytes⟩ := h
  refine ⟨clientBytes trace, n, hheaded, ?_, ?_, ?_⟩
  · simp [hrelay, upCalls]
  · simpa [hrelay, upCalls] using hbytes
  · rw [hrelay]
    exact relayInv_start _ _

theorem sessionInv_probe {result : Except IoError (List UInt8)} {buf : List UInt8}
    (hbuf : buf = clientBytes (before ++ [(.read result, effects)]))
    (hforwarded : forwarded before = []) (hrelay : relayTrace before = []) :
    SessionInv cfg (before ++ [(.read result, effects)]) (afterRead (Reader.probe buf)) := by
  have hnone : forwarded (before ++ [(.read result, effects)]) = [] := by
    simpa [Event.accepted] using hforwarded
  have hpolls : relayTrace (before ++ [(.read result, effects)]) = [] :=
    relayTrace_snoc_nil (by simp) hrelay
  rcases probe_cases buf with hprobe | ⟨rest, message, hprobe⟩ |
    ⟨rest, request, n, hprobe, hheaded, hpayload⟩
  · rw [hprobe]
    exact ⟨rfl, hbuf, hnone, hpolls⟩
  · rw [hprobe]
    exact .inl hnone
  · rw [hprobe]
    cases hcmd : request.cmd with
    | connect =>
        simp only [afterRead, hcmd]
        refine ⟨⟨n, by rwa [← hbuf], ?_⟩, hnone, hpolls⟩
        rw [hnone, hpayload, hbuf, List.nil_append]
    | udpAssociate =>
        simp only [afterRead, hcmd]
        exact .inl hnone

theorem sessionInv_read {r r' : Reader} {result : Except IoError (List UInt8)}
    (h : SessionInv cfg before (.reading r))
    (hstep : r.step cfg.bufferSize result = some (r', ())) :
    SessionInv cfg (before ++ [(.read result, effects)]) (afterRead r') := by
  obtain ⟨houtcome, hbuf, hforwarded, hrelay⟩ := h
  have hnone : forwarded (before ++ [(.read result, effects)]) = [] := by
    simpa [Event.accepted] using hforwarded
  unfold Reader.step at hstep
  simp only [houtcome] at hstep
  split at hstep
  · cases hstep
    exact .inl hnone
  · split at hstep
    · cases hstep
      exact .inl hnone
    · cases hstep
      exact .inl hnone
  · rename_i bytes _
    split at hstep
    · cases hstep
      exact .inl hnone
    · cases hstep
      apply sessionInv_probe _ hforwarded hrelay
      rw [clientBytes_snoc, hbuf]
      rfl

theorem sessionInv_poll {user : UserId} {r r' : RelayFuture} {calls : PollCalls}
    (h : SessionInv cfg before (.relaying user r))
    (hstep : r.step (relayConfig cfg user) calls = some (r', effects)) :
    SessionInv cfg (before ++ [(.poll calls, effects)]) (.relaying user r') := by
  obtain ⟨buf, n, hheaded, hclient, hremote, hrelay⟩ := h
  refine ⟨buf, n, hheaded, ?_, ?_, ?_⟩
  · rw [clientBytes_snoc, hclient, relayTrace_snoc_poll, upCalls_snoc, returnedBytes_append,
      List.append_assoc]
    rfl
  · rw [forwarded_snoc, hremote, relayTrace_snoc_poll, upCalls_snoc, acceptedBytes_append,
      List.append_assoc]
    rfl
  · rw [relayTrace_snoc_poll]
    exact hrelay.step hstep

theorem Carries.same {held : List UInt8} (h : Carries before held)
    (hreceived : event.received = []) (haccepted : event.accepted = []) :
    Carries (before ++ [(event, effects)]) held := by
  rw [Carries, clientBytes_snoc, forwarded_snoc, hreceived, haccepted, List.append_nil,
    List.append_nil]
  exact h

theorem sessionInv_closed (h : SessionInv cfg before s) (hreceived : event.received = [])
    (haccepted : event.accepted = []) :
    SessionInv cfg (before ++ [(event, effects)]) .closed := by
  rcases h.forwards with hnone | ⟨held, hcarries⟩
  · refine .inl ?_
    rw [forwarded_snoc, hnone, haccepted, List.append_nil]
  · exact .inr ⟨held, hcarries.same hreceived haccepted⟩

theorem sessionInv_step (h : SessionInv cfg before s)
    (hstep : s.step cfg event = some (s', effects)) :
    SessionInv cfg (before ++ [(event, effects)]) s' := by
  cases session_cases hstep with
  | read hread => exact sessionInv_read h hread
  | bare user now =>
      exact sessionInv_startRelay user now (h.1.same rfl rfl) (relayTrace_snoc_nil (by simp) h.2.2)
  | payload _ user now => exact ⟨h.1.same rfl rfl, relayTrace_snoc_nil (by simp) h.2.2⟩
  | blocked user rest now => exact ⟨h.1.same rfl rfl, relayTrace_snoc_nil (by simp) h.2⟩
  | failed user rest now result hfailed => exact sessionInv_closed h rfl hfailed
  | wrote _ _ user now => exact ⟨h.1.write, relayTrace_snoc_nil (by simp) h.2⟩
  | written user rest now =>
      have hdone : Carries (before ++ [(.write now rest (.ready (.ok rest.length)), [])])
          (rest.drop rest.length) := h.1.write
      rw [List.drop_length] at hdone
      exact sessionInv_startRelay user now hdone (relayTrace_snoc_nil (by simp) h.2)
  | poll hpoll => exact sessionInv_poll h hpoll
  | close _ => exact sessionInv_closed h rfl rfl

theorem sessionInv_run {inputs : List Event}
    (hrun : run (Session.step cfg) .start inputs = some (s, trace)) : SessionInv cfg trace s := by
  refine run_induction (P := SessionInv cfg) hrun ⟨rfl, rfl, rfl, rfl⟩ ?_
  intro _ _ _ _ _ h hstep
  exact sessionInv_step h hstep

end Invariant

/-- The remote is handed what follows the header, byte by byte as the client sent it,
and all of it up to the client's end of file if the relay completes. -/
theorem connect_upload_faithful {cfg : RelayConfig} (hbuffer : 320 ≤ cfg.bufferSize)
    {head data : List UInt8} (hhead : IsRequest (head ++ data) head.length)
    {inputs : List Event} {s : Session} {trace : Trace}
    (hrun : run (Session.step cfg) .start inputs = some (s, trace))
    (hstream : clientBytes trace <+: head ++ data) :
    forwarded trace <+: data ∧
      ∀ user r result, s = .relaying user r → r.returned = some (.ok result) →
        result.termination = .completed →
        (upCalls (relayTrace trace)).any IoCall.isEof = true ∧
          head ++ forwarded trace = clientBytes trace := by
  have hinv := sessionInv_run hrun
  have hlength : ∀ {n}, Headed (clientBytes trace) n → n = head.length := by
    intro n hheaded
    obtain ⟨more, hmore⟩ := hstream
    exact headed_unique (hmore ▸ headed_append hheaded more) hhead
  have hdrop : (clientBytes trace).drop head.length <+: data := by
    have hdropped := hstream.drop head.length
    rwa [List.drop_left] at hdropped
  constructor
  · rcases hinv.forwards with hnone | ⟨held, n, hheaded, hbytes⟩
    · rw [hnone]
      exact List.nil_prefix
    · rw [hlength hheaded] at hbytes
      exact (List.prefix_append _ held).trans (hbytes ▸ hdrop)
  · rintro user r result rfl hreturned hcompleted
    obtain ⟨buf, n, hphase⟩ := hinv
    obtain ⟨hdone, -⟩ := hphase.relay.completed result hreturned hcompleted
    have hclean := (hphase.relay.clean (by simp [hreturned])).1
    have hdelivered := hphase.relay.up.fullyDelivered (Nat.lt_of_lt_of_le (by decide) hbuffer)
      hdone hclean
    have hheaded : Headed (clientBytes trace) n := by
      rw [hphase.client]
      exact headed_append hphase.headed _
    refine ⟨hdelivered.eof, ?_⟩
    have hn := hlength hheaded
    have hforwarded : forwarded trace = (clientBytes trace).drop n := by
      rw [hphase.client, hphase.remote, hdelivered.delivered,
        List.drop_append_of_le_length hphase.headed.2.1]
    have htake : (clientBytes trace).take n = head := by
      obtain ⟨more, hmore⟩ := hstream
      have htaken := congrArg (List.take n) hmore
      rw [List.take_append_of_le_length hheaded.2.1, hn, List.take_left] at htaken
      rw [hn]
      exact htaken
    rw [hforwarded, ← htake, List.take_append_drop]

def sampleHeader : List UInt8 :=
  header (List.Vector.replicate 56 97) 1 (.ipv4 ⟨[1, 2, 3, 4], rfl⟩ 80)

/-- The header arrives in two reads, with the first byte of the data behind it. -/
def sampleEvents : List Event :=
  [.read (.ok (sampleHeader.take 60)), .read (.ok (sampleHeader.drop 60 ++ [7])), .connected 5 0,
    .write 0 [7] (.ready (.ok 1)),
    .poll
      { now := 0
        up := [.pollFlush (.ready (.ok ())), .pollRead 320 (.ready (.ok [8, 9])),
          .pollWrite [8, 9] (.ready (.ok 2)), .pollFlush (.ready (.ok ())),
          .pollRead 320 (.ready (.ok [])), .pollFlush (.ready (.ok ())),
          .pollShutdown (.ready (.ok ()))]
        down := [.pollFlush (.ready (.ok ())), .pollRead 320 (.ready (.ok [])),
          .pollFlush (.ready (.ok ())), .pollShutdown (.ready (.ok ()))] }]

set_option maxRecDepth 4096 in
theorem connect_upload_faithful_two_reads :
    ∃ s trace, run (Session.step ⟨30, 2, 5, 320, none⟩) .start sampleEvents = some (s, trace) ∧
      forwarded trace = [7, 8, 9] ∧ forwarded trace <+: [7, 8, 9] ∧
      sampleHeader ++ forwarded trace = clientBytes trace := by
  obtain ⟨r, trace, result, hrun, hreturned, hcompleted, hclient, hforwarded⟩ :
      ∃ r trace result, run (Session.step ⟨30, 2, 5, 320, none⟩) .start sampleEvents =
          some (.relaying 5 r, trace) ∧ r.returned = some (.ok result) ∧
        result.termination = .completed ∧ clientBytes trace = sampleHeader ++ [7, 8, 9] ∧
        forwarded trace = [7, 8, 9] :=
    ⟨_, _, _, rfl, rfl, rfl, rfl, rfl⟩
  have hhead : IsRequest (sampleHeader ++ [7, 8, 9]) sampleHeader.length :=
    ⟨by simp, _, 1, .ipv4 ⟨[1, 2, 3, 4], rfl⟩ 80, .inl rfl, trivial, List.take_left⟩
  obtain ⟨hpart, hall⟩ := connect_upload_faithful (by decide) hhead hrun (by rw [hclient])
  exact ⟨_, trace, hrun, hforwarded, hpart, (hall 5 r result rfl hreturned hcompleted).2⟩

end TrojanServer.ConnectSession
