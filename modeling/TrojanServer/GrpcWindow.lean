import Mathlib.Algebra.GroupWithZero.Nat
import TrojanServer.GrpcReassembly
import TrojanServer.GrpcSend

namespace TrojanServer.GrpcReceive

open TrojanServer.FrameDecoding
open TrojanServer.GrpcCodec
open TrojanServer.GrpcSend (maxFrameSize)
open TrojanServer.StepMachine

def maxConcurrentStreams : Nat := 100

def initialWindowSize : Nat := 1024 * 1024

def initialConnectionWindowSize : Nat := 4 * 1024 * 1024

/-- A stream with all the bytes that were sent on it; it is parked while the last
poll of its transport was pending and nothing has happened to it since. -/
structure Channel where
  received : List UInt8
  side : ReadSide
  parked : Bool

def Channel.start : Channel := ⟨[], .start (some false), false⟩

def Channel.unreleased (ch : Channel) : Nat := ch.received.length - ch.side.recvStream.released

def Channel.step (ch : Channel) (event : Event) : Option (Channel × Option ReadResult) :=
  (ch.side.step event).map fun r =>
    (⟨ch.received ++ arrivedIn event, r.1, decide (r.2 = some .pending)⟩, r.2)

structure Connection where
  channels : List Channel

def Connection.start : Connection := ⟨[]⟩

def Connection.unreleased (c : Connection) : Nat := (c.channels.map Channel.unreleased).sum

/-- The frame size and the two windows bound what the peer may send. -/
def Connection.admits (c : Connection) (ch : Channel) (event : Event) : Bool :=
  match event with
  | .data chunk =>
      decide (chunk.length ≤ maxFrameSize) &&
        decide (ch.unreleased + chunk.length ≤ initialWindowSize) &&
        decide (c.unreleased + chunk.length ≤ initialConnectionWindowSize)
  | _ => true

inductive ConnectionEvent where
  | openStream
  | stream (i : Nat) (event : Event)

def Connection.step (c : Connection) (event : ConnectionEvent) :
    Option (Connection × Option ReadResult) :=
  match event with
  | .openStream =>
      if c.channels.length < maxConcurrentStreams then some (⟨c.channels ++ [.start]⟩, none)
      else none
  | .stream i event =>
      match c.channels[i]? with
      | none => none
      | some ch =>
          if c.admits ch event then
            (ch.step event).map fun r => (⟨c.channels.set i r.1⟩, r.2)
          else none

/-- The bytes of the frame that is not complete, or not a frame. -/
def unfinished (input : List UInt8) : Nat := (drain decodeFrame input).rest.length

def Connection.unfinished (c : Connection) : Nat :=
  (c.channels.map fun ch => GrpcReceive.unfinished ch.received).sum

section Channel

variable {input : List UInt8} {t t' : ReadSide} {room : Nat}

/-- All window but that of the bytes ahead has been given back. -/
structure WindowInv (input : List UInt8) (t : ReadSide) : Prop where
  frames : ∃ bytes payloads, InboundFrames bytes payloads ∧ input = bytes ++ t.ahead
  pending : t.pendingReleaseCapacity = t.readPending.length
  released : t.recvStream.released + t.ahead.length = input.length

theorem WindowInv.consumed {frame payload rest : List UInt8} (h : WindowInv input t)
    (hframe : InboundFrame frame payload) (hpending : t.readPending = frame ++ rest) :
    WindowInv input (t.consumed frame.length rest) := by
  obtain ⟨⟨bytes, payloads, hframes, hinput⟩, hcapacity, hreleased⟩ := h
  rw [ReadSide.ahead, hpending] at hinput hreleased
  rw [hpending, List.length_append] at hcapacity
  simp only [List.length_append] at hreleased
  refine ⟨⟨_, _, hframes.append (.single hframe), ?_⟩, ?_, ?_⟩
  · rw [hinput]
    simp [ReadSide.ahead, ReadSide.consumed]
  · simp only [ReadSide.consumed]
    omega
  · simp only [ReadSide.ahead, ReadSide.consumed, List.length_append]
    omega

theorem WindowInv.taken {chunk : List UInt8} {chunks : List (List UInt8)} (h : WindowInv input t)
    (hchunks : t.recvStream.chunks = chunk :: chunks) :
    WindowInv input (t.received chunk { t.recvStream with chunks := chunks }) := by
  obtain ⟨hframes, hcapacity, hreleased⟩ := h
  have hahead : (t.received chunk { t.recvStream with chunks := chunks }).ahead = t.ahead := by
    simp [ReadSide.ahead, ReadSide.received, hchunks]
  refine ⟨by rwa [hahead], ?_, by rwa [hahead]⟩
  simp [ReadSide.received, hcapacity]

theorem WindowInv.pulls (h : WindowInv input t) (hpulls : Pulls t t') : WindowInv input t' := by
  induction hpulls with
  | done _ => exact h
  | skip hframe hpending _ ih => exact ih (h.consumed hframe hpending)
  | take _ _ hchunks _ ih => exact ih (h.taken hchunks)

theorem WindowInv.loopEnd {r : ReadSide × ReadResult} (h : WindowInv input t)
    (hend : LoopEnd t room r) : WindowInv input r.1 := by
  cases hend with
  | oversized _ => exact ⟨h.frames, h.pending, h.released⟩
  | @payload frame payload rest hframe _ hpending =>
      have hnext := h.consumed hframe hpending
      unfold ReadSide.deliver
      simp only
      split
      · exact ⟨hnext.frames, hnext.pending, hnext.released⟩
      · exact hnext
  | malformed herror =>
      have hcase := parse_cases t.readPending
      rw [herror] at hcase
      cases hcase <;> exact ⟨h.frames, h.pending, h.released⟩
  | failed _ _ => exact ⟨h.frames, h.pending, h.released⟩
  | ended _ _ _ _ => exact ⟨h.frames, h.pending, h.released⟩
  | waiting _ _ _ _ => exact h

theorem windowInv_pollRead (h : WindowInv input t) (room : Nat) :
    WindowInv input (t.pollRead room).1 := by
  have hcase := pollRead_cases t room
  generalize t.pollRead room = r at hcase
  cases hcase with
  | closed _ => exact h
  | leftover _ _ => exact ⟨h.frames, h.pending, h.released⟩
  | loop _ hpulls hend => exact (h.pulls hpulls).loopEnd hend

theorem WindowInv.arrive {chunk : List UInt8} (h : WindowInv input t) :
    WindowInv (input ++ chunk)
      (t.arrive { t.recvStream with chunks := t.recvStream.chunks ++ [chunk] }) := by
  obtain ⟨⟨bytes, payloads, hframes, hinput⟩, hcapacity, hreleased⟩ := h
  refine ⟨⟨bytes, payloads, hframes, ?_⟩, hcapacity, ?_⟩
  · rw [hinput]
    simp [ReadSide.ahead, ReadSide.arrive]
  · simp only [ReadSide.ahead, ReadSide.arrive, List.length_append, List.flatten_append,
      List.flatten_singleton] at hreleased ⊢
    omega

theorem WindowInv.signal (h : WindowInv input t) (ended : Option (Except StreamError Unit)) :
    WindowInv input (t.arrive { t.recvStream with ended := ended }) :=
  ⟨h.frames, h.pending, h.released⟩

/-- A transport that waits for data has taken all that came, and has no complete frame. -/
structure Waiting (t : ReadSide) : Prop where
  parse : parseGrpcMessageZerocopy t.readPending = (.ok none, t.readPending)
  limit : t.oversized = none
  chunks : t.recvStream.chunks = []
  ended : t.recvStream.ended = none

theorem waiting_of_pending (h : (t.pollRead room).2 = .pending) : Waiting (t.pollRead room).1 := by
  have hcase := pollRead_cases t room
  generalize t.pollRead room = r at hcase h
  cases hcase with
  | closed _ => cases h
  | leftover _ _ => cases h
  | loop _ _ hend =>
      cases hend with
      | waiting hparse hlimit hchunks hended => exact ⟨hparse, hlimit, hchunks, hended⟩
      | payload _ _ _ =>
          unfold ReadSide.deliver at h
          simp only at h
          split at h <;> cases h
      | _ => cases h

theorem drain_inboundFrames {bytes rest : List UInt8} {payloads : List (List UInt8)}
    (h : InboundFrames bytes payloads) (hrest : decodeFrame rest = (.needMoreData, rest)) :
    drain decodeFrame (bytes ++ rest) = ⟨payloads, rest, none⟩ := by
  induction h with
  | nil => exact drain_needMoreData hrest
  | @cons frame payload bytes payloads hframe _ ih =>
      have hdecode : decodeFrame (frame ++ bytes ++ rest) =
          (.ok payload frame.length, bytes ++ rest) :=
        decodeFrame_eq_ok_iff.mpr ⟨frame, hframe.1, rfl, List.append_assoc ..⟩
      rw [drain_ok shrinks_decodeFrame hdecode, ih]

theorem ahead_of_waiting (h : Waiting t) : t.ahead = t.readPending := by
  simp [ReadSide.ahead, h.chunks]

theorem unfinished_of_waiting (hinv : WindowInv input t) (h : Waiting t) :
    unfinished input = t.readPending.length := by
  obtain ⟨bytes, payloads, hframes, rfl⟩ := hinv.frames
  rw [ahead_of_waiting h, unfinished,
    drain_inboundFrames hframes (decodeFrame_of_parse_none h.parse)]

/-- An incomplete frame is shorter than the largest one. -/
theorem length_lt_of_incomplete
    (hparse : parseGrpcMessageZerocopy t.readPending = (.ok none, t.readPending))
    (hlimit : t.oversized = none) : t.readPending.length < 5 + maxInboundFrameLen := by
  have hcase := parse_cases t.readPending
  rw [hparse] at hcase
  generalize hrest : t.readPending = rest at hcase
  cases hcase with
  | short hshort => omega
  | @incomplete a b c d data hbuf hlen =>
      rw [ReadSide.oversized, hrest, hbuf] at hlimit
      simp only [declaredFrameLen, ite_eq_right_iff, reduceCtorEq, imp_false,
        Nat.not_lt] at hlimit
      rw [hbuf]
      simp only [List.length_cons]
      omega

theorem length_lt_of_waiting (h : Waiting t) :
    t.readPending.length < 5 + maxInboundFrameLen :=
  length_lt_of_incomplete h.parse h.limit

end Channel

section Connection

structure ChannelInv (ch : Channel) : Prop where
  window : WindowInv ch.received ch.side
  waiting : ch.parked = true → Waiting ch.side

theorem channelInv_start : ChannelInv .start :=
  ⟨⟨⟨[], [], .nil, rfl⟩, rfl, rfl⟩, by simp [Channel.start]⟩

theorem channelInv_step {ch ch' : Channel} {event : Event} {o : Option ReadResult}
    (h : ChannelInv ch) (hstep : ch.step event = some (ch', o)) : ChannelInv ch' := by
  obtain ⟨⟨t, o'⟩, hside, heq⟩ := Option.map_eq_some_iff.mp hstep
  cases heq
  cases event_cases hside with
  | read room =>
      refine ⟨?_, fun hparked => waiting_of_pending (by simpa using hparked)⟩
      simpa [arrivedIn] using windowInv_pollRead h.window room
  | data chunk _ => exact ⟨h.window.arrive, by simp⟩
  | endStream _ | reset _ _ =>
      refine ⟨?_, by simp⟩
      simpa [arrivedIn] using h.window.signal _

theorem channels_step {c c' : Connection} {event : ConnectionEvent} {o : Option ReadResult}
    (h : ∀ ch ∈ c.channels, ChannelInv ch) (hstep : c.step event = some (c', o)) :
    ∀ ch ∈ c'.channels, ChannelInv ch := by
  cases event with
  | openStream =>
      simp only [Connection.step, Option.ite_none_right_eq_some] at hstep
      obtain ⟨-, heq⟩ := hstep
      cases heq
      intro ch hmem
      rcases List.mem_append.mp hmem with hold | hnew
      · exact h ch hold
      · obtain rfl := List.mem_singleton.mp hnew
        exact channelInv_start
  | stream i event =>
      simp only [Connection.step] at hstep
      split at hstep
      · cases hstep
      rename_i ch hget
      simp only [Option.ite_none_right_eq_some] at hstep
      obtain ⟨-, hmap⟩ := hstep
      obtain ⟨⟨ch', o'⟩, hch, heq⟩ := Option.map_eq_some_iff.mp hmap
      cases heq
      intro ch'' hmem
      rcases List.mem_or_eq_of_mem_set hmem with hold | rfl
      · exact h ch'' hold
      · exact channelInv_step (h ch (List.mem_of_getElem? hget)) hch

variable {c : Connection} {trace : List (ConnectionEvent × Option ReadResult)}
  {inputs : List ConnectionEvent}

theorem channels_run (hrun : run Connection.step .start inputs = some (c, trace)) :
    ∀ ch ∈ c.channels, ChannelInv ch := by
  refine run_induction (P := fun _ c => ∀ ch ∈ c.channels, ChannelInv ch) hrun ?_ ?_
  · simp [Connection.start]
  · intro _ _ _ _ _ h hstep
    exact channels_step h hstep

theorem unreleased_of_parked {ch : Channel} (h : ChannelInv ch) (hparked : ch.parked = true) :
    ch.unreleased = unfinished ch.received := by
  have hwaiting := h.waiting hparked
  have hreleased := h.window.released
  rw [ahead_of_waiting hwaiting] at hreleased
  rw [unfinished_of_waiting h.window hwaiting, Channel.unreleased]
  omega

theorem unreleased_eq_unfinished (h : ∀ ch ∈ c.channels, ChannelInv ch)
    (hparked : ∀ ch ∈ c.channels, ch.parked = true) : c.unreleased = c.unfinished := by
  unfold Connection.unreleased Connection.unfinished
  congr 1
  apply List.map_congr_left
  intro ch hmem
  exact unreleased_of_parked (h ch hmem) (hparked ch hmem)

/-- With every transport waiting, the connection window has room exactly if the bytes of
the incomplete frames are fewer than its size, and then every stream can go on. -/
theorem window_open_iff (hrun : run Connection.step .start inputs = some (c, trace))
    (hparked : ∀ ch ∈ c.channels, ch.parked = true) :
    (c.unreleased < initialConnectionWindowSize ↔
      c.unfinished < initialConnectionWindowSize) ∧
    (c.unfinished < initialConnectionWindowSize → ∀ i < c.channels.length, ∀ byte,
      (c.step (.stream i (.data [byte]))).isSome = true) := by
  have hinv := channels_run hrun
  have heq := unreleased_eq_unfinished hinv hparked
  refine ⟨by rw [heq], ?_⟩
  intro hroom i hi byte
  have hmem : c.channels[i] ∈ c.channels := List.getElem_mem hi
  have hwaiting := (hinv _ hmem).waiting (hparked _ hmem)
  have hlength := length_lt_of_waiting hwaiting
  have hstream : c.channels[i].unreleased + 1 ≤ initialWindowSize := by
    rw [unreleased_of_parked (hinv _ hmem) (hparked _ hmem),
      unfinished_of_waiting (hinv _ hmem).window hwaiting]
    simp only [maxInboundFrameLen, initialWindowSize] at hlength ⊢
    omega
  have hconnection : c.unreleased + 1 ≤ initialConnectionWindowSize := by omega
  simp [Connection.step, List.getElem?_eq_getElem hi, Connection.admits, hstream, hconnection,
    maxFrameSize, Channel.step, ReadSide.step, hwaiting.ended]

/-- One stream in the middle of a frame header. -/
theorem window_open_header :
    ∃ c trace, run Connection.step .start
        [.openStream, .stream 0 (.data [0, 0]), .stream 0 (.read 1)] = some (c, trace) ∧
      c.unreleased < initialConnectionWindowSize := by
  obtain ⟨c, trace, hrun, hparked, hunfinished⟩ : ∃ c trace, run Connection.step .start
      [.openStream, .stream 0 (.data [0, 0]), .stream 0 (.read 1)] = some (c, trace) ∧
      (∀ ch ∈ c.channels, ch.parked = true) ∧ c.unfinished = 2 := by
    refine ⟨_, _, rfl, ?_, rfl⟩
    intro ch hmem
    obtain rfl := List.mem_singleton.mp hmem
    rfl
  refine ⟨c, trace, hrun, (window_open_iff hrun hparked).1.mpr ?_⟩
  rw [hunfinished]
  decide

end Connection

end TrojanServer.GrpcReceive
