import TrojanServer.GrpcWindow

namespace TrojanServer.GrpcReceive

open TrojanServer.FrameDecoding
open TrojanServer.GrpcCodec
open TrojanServer.GrpcSend (maxFrameSize)
open TrojanServer.StepMachine

theorem sum_le_of_countP {values : List Nat} {bound : Nat} (h : ∀ n ∈ values, n ≤ bound) :
    values.sum ≤ values.countP (fun n => decide (0 < n)) * bound := by
  induction values with
  | nil => simp
  | cons n values ih =>
      have hn := h n (by simp)
      have hrest := ih fun m hm => h m (by simp [hm])
      rw [List.sum_cons, List.countP_cons, Nat.add_mul]
      rcases Nat.eq_zero_or_pos n with rfl | hpos
      · simpa using hrest
      · simp only [hpos, decide_true, if_true, Nat.one_mul]
        omega

/-- Fewer than sixteen streams in the middle of a frame leave the window open. -/
theorem window_open_of_few {c : Connection} {inputs : List ConnectionEvent}
    {trace : List (ConnectionEvent × Option ReadResult)}
    (hrun : run Connection.step .start inputs = some (c, trace))
    (hparked : ∀ ch ∈ c.channels, ch.parked = true)
    (hfew : (c.channels.map fun ch => unfinished ch.received).countP
      (fun n => decide (0 < n)) < 16) :
    c.unreleased < initialConnectionWindowSize := by
  have hinv := channels_run hrun
  have hbound : ∀ n ∈ c.channels.map fun ch => unfinished ch.received,
      n ≤ 4 + maxInboundFrameLen := by
    intro n hn
    obtain ⟨ch, hmem, rfl⟩ := List.mem_map.mp hn
    have hwaiting := (hinv ch hmem).waiting (hparked ch hmem)
    have hlength := length_lt_of_waiting hwaiting
    rw [unfinished_of_waiting (hinv ch hmem).window hwaiting]
    omega
  have hsum := sum_le_of_countP hbound
  rw [unreleased_eq_unfinished hinv hparked, Connection.unfinished]
  simp only [maxInboundFrameLen, initialConnectionWindowSize] at hsum ⊢
  omega

section PartialFrame

/-- The start of a frame of the largest acceptable length. -/
def partialFrame (body : List UInt8) : List UInt8 := 0 :: 0 :: 4 :: 0 :: 0 :: body

variable {body part : List UInt8}

theorem declaredFrameLen_partialFrame (body : List UInt8) :
    declaredFrameLen (partialFrame body) = some maxInboundFrameLen := rfl

theorem length_partialFrame (body : List UInt8) :
    (partialFrame body).length = body.length + 5 := rfl

theorem parse_part (hbody : body.length < maxInboundFrameLen) (h : part <+: partialFrame body) :
    parseGrpcMessageZerocopy part = (.ok none, part) := by
  have hcase := parse_cases part
  generalize parseGrpcMessageZerocopy part = r at hcase
  cases hcase with
  | short _ => rfl
  | compressed hbuf hflag _ =>
      rw [hbuf, partialFrame, List.cons_prefix_cons] at h
      exact absurd h.1 hflag
  | incomplete _ _ => rfl
  | malformed hbuf hlen _ | frame hbuf hlen _ =>
      rw [hbuf, partialFrame] at h
      simp only [List.cons_prefix_cons] at h
      obtain ⟨-, rfl, rfl, rfl, rfl, hdata⟩ := h
      have hle := hdata.length_le
      have hdeclared : (fromBeBytes32 0 4 0 0).toNat = maxInboundFrameLen := rfl
      omega

theorem oversized_part {t : ReadSide} (h : t.readPending <+: partialFrame body) :
    t.oversized = none := by
  rcases hlimit : t.oversized with _ | declared
  · rfl
  · obtain ⟨hdeclared, hlt⟩ := declared_of_oversized hlimit
    obtain ⟨rest, hrest⟩ := h
    have hsame := declaredFrameLen_append hdeclared rest
    rw [hrest, declaredFrameLen_partialFrame, Option.some.injEq] at hsame
    omega

theorem unfinished_partialFrame (hbody : body.length < maxInboundFrameLen) :
    unfinished (partialFrame body) = body.length + 5 := by
  have hdecode := decodeFrame_of_parse_none (parse_part hbody (List.prefix_refl _))
  rw [unfinished, drain_needMoreData hdecode, length_partialFrame]

/-- A transport that has been sent the start of a frame waits for the rest. -/
theorem pollRead_partialFrame {t : ReadSide} (hbody : body.length < maxInboundFrameLen)
    (hclosed : t.readClosed = false) (hread : t.readBuf = [])
    (hended : t.recvStream.ended = none) (hahead : t.ahead = partialFrame body) (room : Nat) :
    (t.pollRead room).2 = .pending := by
  have hpoll : t.pollRead room = ReadSide.pollReadLoop t.rounds t room := by
    simp [ReadSide.pollRead, hclosed, hread]
  rw [hpoll]
  obtain ⟨t', hpulls, hend⟩ := pollReadLoop_cases room (Nat.le_refl t.rounds)
  obtain ⟨⟨bytes, payloads, hframes, -, hsplit⟩, -, -, -, hended'⟩ := hpulls.skipped
  rw [hahead] at hsplit
  have hbytes : bytes = [] := by
    cases hframes with
    | nil => rfl
    | cons hframe _ =>
        have hstuck := stuck_of_parse (parse_part hbody (List.prefix_refl _))
        refine absurd ?_ (hstuck _ _ hframe)
        rw [hsplit, List.append_assoc]
        exact List.prefix_append _ _
  rw [hbytes, List.nil_append] at hsplit
  have hpart : t'.readPending <+: partialFrame body := by
    rw [hsplit]
    exact List.prefix_append _ _
  have hparse := parse_part hbody hpart
  rw [hended] at hended'
  generalize ReadSide.pollReadLoop t.rounds t room = r at hend ⊢
  cases hend with
  | oversized hlimit =>
      rw [oversized_part hpart] at hlimit
      cases hlimit
  | payload hframe _ hpending =>
      rw [parse_eq_some_iff.mpr ⟨_, hframe.1, rfl, hpending⟩] at hparse
      cases hparse
  | malformed herror =>
      rw [herror] at hparse
      cases hparse
  | failed _ hfailed =>
      rw [hended'] at hfailed
      cases hfailed
  | ended _ _ heos _ =>
      rw [hended'] at heos
      cases heos
  | waiting _ _ _ _ => rfl

end PartialFrame

section Feed

/-- A stream on which some chunks have arrived and that was never polled. -/
def fed (chunks : List (List UInt8)) : Channel :=
  ⟨chunks.flatten, (ReadSide.start (some false)).arrive ⟨chunks, none, 0⟩, false⟩

/-- Open the next stream, send it some chunks and poll it. -/
def feed (i : Nat) (chunks : List (List UInt8)) : List ConnectionEvent :=
  .openStream :: (chunks.map fun chunk => .stream i (.data chunk)) ++ [.stream i (.read 1)]

variable {channels : List Channel}

theorem step_last {ch : Channel} {event : Event} {r : Channel × Option ReadResult}
    (hadmits : (Connection.mk (channels ++ [ch])).admits ch event = true)
    (hstep : ch.step event = some r) :
    (Connection.mk (channels ++ [ch])).step (.stream channels.length event) =
      some (⟨channels ++ [r.1]⟩, r.2) := by
  simp [Connection.step, hadmits, hstep]

theorem unreleased_concat (ch : Channel) :
    (Connection.mk (channels ++ [ch])).unreleased =
      (Connection.mk channels).unreleased + ch.unreleased := by
  simp [Connection.unreleased]

theorem step_fed (sent : List (List UInt8)) (chunk : List UInt8) :
    (fed sent).step (.data chunk) = some (fed (sent ++ [chunk]), none) := by
  simp [fed, Channel.step, ReadSide.step, ReadSide.arrive, arrivedIn]

theorem run_chunks (channels : List Channel) (sent more : List (List UInt8))
    (hframe : ∀ chunk ∈ more, chunk.length ≤ maxFrameSize)
    (hstream : (sent ++ more).flatten.length ≤ initialWindowSize)
    (hconnection : (Connection.mk channels).unreleased + (sent ++ more).flatten.length ≤
      initialConnectionWindowSize) :
    ∃ trace, run Connection.step ⟨channels ++ [fed sent]⟩
      (more.map fun chunk => .stream channels.length (.data chunk)) =
        some (⟨channels ++ [fed (sent ++ more)]⟩, trace) := by
  induction more generalizing sent with
  | nil => exact ⟨[], by simp [run]⟩
  | cons chunk more ih =>
      rw [List.append_cons] at hstream hconnection
      obtain ⟨trace, hrest⟩ :=
        ih (sent ++ [chunk]) (fun c hc => hframe c (by simp [hc])) hstream hconnection
      have hsize := hframe chunk (by simp)
      have hunreleased : (fed sent).unreleased = sent.flatten.length := rfl
      have hadmits : (Connection.mk (channels ++ [fed sent])).admits (fed sent) (.data chunk) =
          true := by
        simp only [List.flatten_append, List.flatten_singleton, List.length_append]
          at hstream hconnection
        simp only [Connection.admits, unreleased_concat, hunreleased, Bool.and_eq_true,
          decide_eq_true_eq]
        omega
      rw [← List.append_cons] at hrest
      exact ⟨_, run_cons (step_last hadmits (step_fed sent chunk)) hrest⟩

variable {body : List UInt8} {chunks : List (List UInt8)}

theorem step_read_fed (hbody : body.length < maxInboundFrameLen)
    (hchunks : chunks.flatten = partialFrame body) :
    ∃ ch o, (fed chunks).step (.read 1) = some (ch, o) ∧ ch.parked = true ∧
      ch.received = partialFrame body := by
  have hpending := pollRead_partialFrame (t := (fed chunks).side) hbody rfl rfl rfl hchunks 1
  refine ⟨_, _, rfl, by simp [hpending], ?_⟩
  simp [fed, arrivedIn, hchunks]

/-- One more stream that waits in the middle of a frame. -/
theorem run_feed (hbody : body.length < maxInboundFrameLen)
    (hchunks : chunks.flatten = partialFrame body)
    (hframe : ∀ chunk ∈ chunks, chunk.length ≤ maxFrameSize)
    (hcount : channels.length < maxConcurrentStreams)
    (hconnection : (Connection.mk channels).unreleased + (body.length + 5) ≤
      initialConnectionWindowSize) :
    ∃ ch trace, run Connection.step ⟨channels⟩ (feed channels.length chunks) =
        some (⟨channels ++ [ch]⟩, trace) ∧ ch.parked = true ∧ ch.received = partialFrame body := by
  have hlength : chunks.flatten.length = body.length + 5 := by
    rw [hchunks, length_partialFrame]
  obtain ⟨ch, o, hread, hparked, hreceived⟩ := step_read_fed hbody hchunks
  obtain ⟨trace, hdata⟩ := run_chunks channels [] chunks hframe (by
    rw [List.nil_append, hlength]
    simp only [maxInboundFrameLen, initialWindowSize] at hbody ⊢
    omega) (by rwa [List.nil_append, hlength])
  have hopen : (Connection.mk channels).step .openStream =
      some (⟨channels ++ [fed []]⟩, none) := if_pos hcount
  have hlast : run Connection.step ⟨channels ++ [fed ([] ++ chunks)]⟩
      [.stream channels.length (.read 1)] = some (⟨channels ++ [ch]⟩, [(_, o)]) :=
    run_cons (step_last rfl hread) rfl
  exact ⟨ch, _, run_cons hopen (run_append hdata hlast), hparked, hreceived⟩

theorem unreleased_of_unfinished {c : Connection} {inputs : List ConnectionEvent}
    {trace : List (ConnectionEvent × Option ReadResult)}
    (hrun : run Connection.step .start inputs = some (c, trace))
    (hbody : body.length < maxInboundFrameLen)
    (hchannels : ∀ ch ∈ c.channels, ch.parked = true ∧ ch.received = partialFrame body) :
    c.unreleased = c.channels.length * (body.length + 5) := by
  rw [unreleased_eq_unfinished (channels_run hrun) fun ch hmem => (hchannels ch hmem).1]
  have hmap : (c.channels.map fun ch => unfinished ch.received) =
      List.replicate c.channels.length (body.length + 5) := by
    apply List.eq_replicate_iff.mpr
    refine ⟨List.length_map _, ?_⟩
    intro n hn
    obtain ⟨ch, hmem, rfl⟩ := List.mem_map.mp hn
    rw [(hchannels ch hmem).2, unfinished_partialFrame hbody]
  rw [Connection.unfinished, hmap, List.sum_replicate_nat]

theorem run_feeds (hbody : body.length < maxInboundFrameLen)
    (hchunks : chunks.flatten = partialFrame body)
    (hframe : ∀ chunk ∈ chunks, chunk.length ≤ maxFrameSize) {n : Nat}
    (hcount : n ≤ maxConcurrentStreams)
    (hconnection : n * (body.length + 5) ≤ initialConnectionWindowSize) :
    ∃ inputs c trace, run Connection.step .start inputs = some (c, trace) ∧
      c.channels.length = n ∧
      ∀ ch ∈ c.channels, ch.parked = true ∧ ch.received = partialFrame body := by
  induction n with
  | zero => exact ⟨[], .start, [], rfl, rfl, by simp [Connection.start]⟩
  | succ n ih =>
      rw [Nat.add_mul, Nat.one_mul] at hconnection
      obtain ⟨inputs, c, trace, hrun, rfl, hall⟩ := ih (by omega) (by omega)
      have htotal := unreleased_of_unfinished hrun hbody hall
      obtain ⟨ch, trace', hfeed, hnew⟩ := run_feed hbody hchunks hframe hcount
        (show c.unreleased + (body.length + 5) ≤ initialConnectionWindowSize by omega)
      refine ⟨_, _, _, run_append hrun hfeed, by simp, ?_⟩
      intro ch' hmem
      rcases List.mem_append.mp hmem with hold | hlast
      · exact hall ch' hold
      · obtain rfl := List.mem_singleton.mp hlast
        exact hnew

end Feed

theorem data_rejected {c : Connection} (h : c.unreleased = initialConnectionWindowSize) (i : Nat)
    (byte : UInt8) : c.step (.stream i (.data [byte])) = none := by
  simp only [Connection.step]
  split
  · rfl
  · simp [Connection.admits, h]

def zeros (n : Nat) : List UInt8 := List.replicate n 0

theorem length_zeros (n : Nat) : (zeros n).length = n := List.length_replicate

/-- Sixteen streams, each in the middle of a frame of the largest acceptable length, use
up the connection window: all transports wait, and no stream can be sent another byte. -/
theorem partial_frames_exhaust_window :
    ∃ inputs c trace, run Connection.step .start inputs = some (c, trace) ∧
      c.channels.length = 16 ∧
      (∀ ch ∈ c.channels, ch.parked = true ∧
        declaredFrameLen ch.received = some maxInboundFrameLen) ∧
      c.unreleased = initialConnectionWindowSize ∧
      ∀ i byte, c.step (.stream i (.data [byte])) = none := by
  let body := zeros 65531 ++ (zeros 65536 ++ (zeros 65536 ++ zeros 65536))
  let chunks := [partialFrame (zeros 65531), zeros 65536, zeros 65536, zeros 65536]
  have hlength : body.length = 262139 := by
    simp only [body, List.length_append, length_zeros]
  have hbody : body.length < maxInboundFrameLen := by
    rw [hlength]
    decide
  have hchunks : chunks.flatten = partialFrame body := by
    simp only [chunks, body, partialFrame, List.flatten_cons, List.flatten_nil, List.append_nil,
      List.cons_append]
  have hframe : ∀ chunk ∈ chunks, chunk.length ≤ maxFrameSize := by
    simp only [chunks, List.mem_cons, List.not_mem_nil, or_false]
    rintro chunk (rfl | rfl | rfl | rfl)
    · rw [length_partialFrame, length_zeros]
      decide
    all_goals
      rw [length_zeros]
      decide
  obtain ⟨inputs, c, trace, hrun, hcount, hall⟩ := run_feeds (n := 16) hbody hchunks hframe
    (by decide) (by rw [hlength]; decide)
  have hfull : c.unreleased = initialConnectionWindowSize := by
    rw [unreleased_of_unfinished hrun hbody hall, hcount, hlength]
    rfl
  refine ⟨inputs, c, trace, hrun, hcount, ?_, hfull, data_rejected hfull⟩
  intro ch hmem
  refine ⟨(hall ch hmem).1, ?_⟩
  rw [(hall ch hmem).2]
  exact declaredFrameLen_partialFrame _

end TrojanServer.GrpcReceive
