import TrojanServer.GrpcFrames
import TrojanServer.GrpcReceive

namespace TrojanServer.GrpcReceive

open TrojanServer.AsyncIo
open TrojanServer.GrpcCodec

def InboundFrame (frame payload : List UInt8) : Prop :=
  IsFrame frame payload ∧ frame.length ≤ 5 + maxInboundFrameLen

/-- Bytes made of complete frames within the limit, and the payloads of these. -/
inductive InboundFrames : List UInt8 → List (List UInt8) → Prop
  | nil : InboundFrames [] []
  | cons {frame payload bytes : List UInt8} {payloads : List (List UInt8)}
      (hframe : InboundFrame frame payload) (hrest : InboundFrames bytes payloads) :
      InboundFrames (frame ++ bytes) (payload :: payloads)

structure LongestFrames (input bytes : List UInt8) (payloads : List (List UInt8)) : Prop where
  frames : InboundFrames bytes payloads
  within : bytes <+: input
  longest : ∀ bytes' payloads', InboundFrames bytes' payloads' → bytes' <+: input →
    bytes' <+: bytes

/-- No frame that would be accepted stands at the front, whatever follows. -/
def Stuck (rest : List UInt8) : Prop :=
  ∀ frame payload, InboundFrame frame payload → ¬ frame <+: rest

section Frames

theorem isFrame_unique {frame frame' payload payload' input : List UInt8}
    (h : IsFrame frame payload) (h' : IsFrame frame' payload') (hin : frame <+: input)
    (hin' : frame' <+: input) : frame = frame' ∧ payload = payload' := by
  obtain ⟨rest, rfl⟩ := hin
  obtain ⟨rest', heq⟩ := hin'
  have hparse : parseGrpcMessageZerocopy (frame ++ rest) = (.ok (some (payload, _)), rest) :=
    parse_eq_some_iff.mpr ⟨frame, h, rfl, rfl⟩
  have hparse' := parse_eq_some_iff.mpr ⟨frame', h', rfl, heq.symm⟩
  rw [hparse] at hparse'
  simp only [Prod.mk.injEq, Except.ok.injEq, Option.some.injEq] at hparse'
  exact ⟨(List.append_inj heq hparse'.1.2.symm).1.symm, hparse'.1.1⟩

theorem InboundFrames.append {bytes bytes' : List UInt8} {payloads payloads' : List (List UInt8)}
    (h : InboundFrames bytes payloads) (h' : InboundFrames bytes' payloads') :
    InboundFrames (bytes ++ bytes') (payloads ++ payloads') := by
  induction h with
  | nil => exact h'
  | cons hframe _ ih =>
      rw [List.append_assoc]
      exact .cons hframe ih

theorem InboundFrames.single {frame payload : List UInt8} (h : InboundFrame frame payload) :
    InboundFrames frame [payload] := by
  simpa using InboundFrames.cons h .nil

/-- Frames read from the front of a stream agree as far as both go. -/
theorem InboundFrames.isPrefix_of_stuck {bytes bytes' rest : List UInt8}
    {payloads payloads' : List (List UInt8)} (h : InboundFrames bytes payloads)
    (h' : InboundFrames bytes' payloads') (hstuck : Stuck rest) (hin : bytes' <+: bytes ++ rest) :
    bytes' <+: bytes := by
  induction h generalizing bytes' payloads' with
  | nil =>
      cases h' with
      | nil => exact List.nil_prefix
      | cons hframe _ => exact absurd ((List.prefix_append _ _).trans hin) (hstuck _ _ hframe)
  | @cons frame payload bytes payloads hframe _ ih =>
      cases h' with
      | nil => exact List.nil_prefix
      | @cons frame' payload' tail _ hframe' hrest =>
          rw [List.append_assoc] at hin
          obtain ⟨rfl, -⟩ := isFrame_unique hframe'.1 hframe.1
            ((List.prefix_append _ _).trans hin) (List.prefix_append _ _)
          exact (List.prefix_append_right_inj _).mpr
            (ih hrest ((List.prefix_append_right_inj _).mp hin))

theorem InboundFrames.payloads_unique {bytes : List UInt8} {payloads payloads' : List (List UInt8)}
    (h : InboundFrames bytes payloads) (h' : InboundFrames bytes payloads') :
    payloads = payloads' := by
  induction h generalizing payloads' with
  | nil =>
      generalize hbytes : ([] : List UInt8) = bytes at h'
      cases h' with
      | nil => rfl
      | cons hframe' _ =>
          exact absurd (List.append_eq_nil_iff.mp hbytes.symm).1 (ne_nil_of_isFrame hframe'.1)
  | @cons frame payload bytes payloads hframe _ ih =>
      generalize hbytes : frame ++ bytes = all at h'
      cases h' with
      | nil => exact absurd (List.append_eq_nil_iff.mp hbytes).1 (ne_nil_of_isFrame hframe.1)
      | cons hframe' hrest =>
          obtain ⟨rfl, rfl⟩ := isFrame_unique hframe.1 hframe'.1 (List.prefix_append _ _)
            (by rw [hbytes]; exact List.prefix_append _ _)
          obtain rfl := List.append_cancel_left hbytes
          rw [ih hrest]

theorem longestFrames_of_stuck {bytes rest : List UInt8} {payloads : List (List UInt8)}
    (h : InboundFrames bytes payloads) (hstuck : Stuck rest) :
    LongestFrames (bytes ++ rest) bytes payloads where
  frames := h
  within := List.prefix_append _ _
  longest _ _ h' hin := h.isPrefix_of_stuck h' hstuck hin

theorem LongestFrames.unique {input bytes bytes' : List UInt8}
    {payloads payloads' : List (List UInt8)} (h : LongestFrames input bytes payloads)
    (h' : LongestFrames input bytes' payloads') : bytes = bytes' ∧ payloads = payloads' := by
  have heq : bytes = bytes' :=
    (h'.longest _ _ h.frames h.within).eq_of_length_le
      (h.longest _ _ h'.frames h'.within).length_le
  subst heq
  exact ⟨rfl, h.frames.payloads_unique h'.frames⟩

theorem stuck_of_parse {buf rest : List UInt8}
    (h : parseGrpcMessageZerocopy buf = (.ok none, rest)) : Stuck buf := by
  rintro frame payload hframe ⟨tail, rfl⟩
  rw [parse_eq_some_iff.mpr ⟨frame, hframe.1, rfl, rfl⟩] at h
  cases h

theorem stuck_append_of_error {buf rest : List UInt8} {e : IoError}
    (h : parseGrpcMessageZerocopy buf = (.error e, rest)) (more : List UInt8) :
    Stuck (buf ++ more) := by
  rintro frame payload hframe ⟨tail, htail⟩
  have herror := parse_append_of_error h more
  rw [← htail, parse_eq_some_iff.mpr ⟨frame, hframe.1, rfl, rfl⟩] at herror
  cases herror

theorem declared_of_oversized {t : ReadSide} {declared : Nat} (h : t.oversized = some declared) :
    declaredFrameLen t.readPending = some declared ∧ maxInboundFrameLen < declared := by
  unfold ReadSide.oversized at h
  split at h
  · split at h
    · cases h
      exact ⟨‹_›, ‹_›⟩
    · cases h
  · cases h

theorem stuck_append_of_oversized {t : ReadSide} {declared : Nat}
    (h : t.oversized = some declared) (more : List UInt8) : Stuck (t.readPending ++ more) := by
  obtain ⟨hdeclared, hlimit⟩ := declared_of_oversized h
  rintro frame payload hframe ⟨tail, htail⟩
  have hlen := declaredFrameLen_append hdeclared more
  rw [← htail, declaredFrameLen_of_isFrame hframe.1, Option.some.injEq] at hlen
  have hbound := hframe.2
  omega

theorem inboundFrame_of_parse {t : ReadSide} {payload rest : List UInt8} {n : Nat}
    (hlimit : t.oversized = none)
    (h : parseGrpcMessageZerocopy t.readPending = (.ok (some (payload, n)), rest)) :
    ∃ frame, InboundFrame frame payload ∧ n = frame.length ∧ t.readPending = frame ++ rest := by
  obtain ⟨frame, hframe, hn, hpending⟩ := parse_eq_some_iff.mp h
  refine ⟨frame, ⟨hframe, ?_⟩, hn, hpending⟩
  unfold ReadSide.oversized at hlimit
  rw [hpending, declaredFrameLen_of_isFrame hframe] at hlimit
  simp only [ite_eq_right_iff, reduceCtorEq, imp_false, Nat.not_lt] at hlimit
  omega

end Frames

section Loop

/-- The rounds of the loop that do not end it. -/
inductive Pulls : ReadSide → ReadSide → Prop
  | done (t : ReadSide) : Pulls t t
  | skip {t t' : ReadSide} {frame rest : List UInt8} (hframe : InboundFrame frame [])
      (hpending : t.readPending = frame ++ rest) (hnext : Pulls (t.consumed frame.length rest) t') :
      Pulls t t'
  | take {t t' : ReadSide} {chunk : List UInt8} {chunks : List (List UInt8)}
      (hwaiting : parseGrpcMessageZerocopy t.readPending = (.ok none, t.readPending))
      (hlimit : t.oversized = none) (hchunks : t.recvStream.chunks = chunk :: chunks)
      (hnext : Pulls (t.received chunk { t.recvStream with chunks := chunks }) t') : Pulls t t'

/-- The round that ends it. -/
inductive LoopEnd (t : ReadSide) (room : Nat) : ReadSide × ReadResult → Prop
  | oversized {declared : Nat} {e : IoError} (hlimit : t.oversized = some declared) :
      LoopEnd t room (t.close (.error e))
  | payload {frame payload rest : List UInt8} (hframe : InboundFrame frame payload)
      (hpayload : payload ≠ []) (hpending : t.readPending = frame ++ rest) :
      LoopEnd t room ((t.consumed frame.length rest).deliver payload room)
  | malformed {e : IoError} {rest : List UInt8}
      (herror : parseGrpcMessageZerocopy t.readPending = (.error e, rest)) :
      LoopEnd t room ({ t with readPending := rest }, .ready (.error e))
  | failed {e : StreamError} {result : Except IoError (List UInt8)}
      (hchunks : t.recvStream.chunks = []) (hended : t.recvStream.ended = some (.error e)) :
      LoopEnd t room (t.close result)
  | ended {result : Except IoError (List UInt8)}
      (hwaiting : parseGrpcMessageZerocopy t.readPending = (.ok none, t.readPending))
      (hchunks : t.recvStream.chunks = []) (hended : t.recvStream.ended = some (.ok ()))
      (hresult : result = .ok [] ∧ t.readPending = [] ∨
        (∃ e, result = .error e) ∧ t.readPending ≠ []) :
      LoopEnd t room (t.close result)
  | waiting (hwaiting : parseGrpcMessageZerocopy t.readPending = (.ok none, t.readPending))
      (hlimit : t.oversized = none)
      (hchunks : t.recvStream.chunks = []) (hended : t.recvStream.ended = none) :
      LoopEnd t room (t, .pending)

theorem rounds_consumed {t : ReadSide} {frame rest payload : List UInt8}
    (hframe : InboundFrame frame payload) (hpending : t.readPending = frame ++ rest) :
    (t.consumed frame.length rest).rounds < t.rounds := by
  have hlen := five_le_length_of_isFrame hframe.1
  simp only [ReadSide.rounds, ReadSide.consumed, hpending, List.length_append]
  omega

theorem rounds_received {t : ReadSide} {chunk : List UInt8} {chunks : List (List UInt8)}
    (hchunks : t.recvStream.chunks = chunk :: chunks) :
    (t.received chunk { t.recvStream with chunks := chunks }).rounds < t.rounds := by
  simp only [ReadSide.rounds, ReadSide.received, hchunks, List.length_append, List.flatten_cons,
    List.length_cons]
  omega

theorem pollReadLoop_cases {fuel : Nat} {t : ReadSide} (room : Nat) (hfuel : t.rounds ≤ fuel) :
    ∃ t', Pulls t t' ∧ LoopEnd t' room (ReadSide.pollReadLoop fuel t room) := by
  induction fuel generalizing t with
  | zero => simp [ReadSide.rounds] at hfuel
  | succ fuel ih =>
      unfold ReadSide.pollReadLoop
      split
      · rename_i declared hlimit
        exact ⟨t, .done t, .oversized hlimit⟩
      rename_i hlimit
      split
      · rename_i payload n rest hparse
        obtain ⟨frame, hframe, rfl, hpending⟩ := inboundFrame_of_parse hlimit hparse
        split
        · rename_i hempty
          obtain rfl := List.isEmpty_iff.mp hempty
          have hrounds := rounds_consumed hframe hpending
          obtain ⟨t', hpulls, hend⟩ := ih (t := t.consumed frame.length rest) (by omega)
          exact ⟨t', .skip hframe hpending hpulls, hend⟩
        · rename_i hempty
          exact ⟨t, .done t, .payload hframe (by simpa using hempty) hpending⟩
      · rename_i e rest herror
        exact ⟨t, .done t, .malformed herror⟩
      · rename_i rest hparse
        obtain rfl := rest_of_parse_none hparse
        rcases hchunks : t.recvStream.chunks with _ | ⟨chunk, chunks⟩
        · rcases hended : t.recvStream.ended with _ | e | ⟨⟨⟩⟩
          · simp only [RecvStream.pollData, hchunks, hended]
            exact ⟨t, .done t, .waiting hparse hlimit hchunks hended⟩
          · simp only [RecvStream.pollData, hchunks, hended]
            split
            · exact ⟨t, .done t, .failed hchunks hended⟩
            split
            · exact ⟨t, .done t, .failed hchunks hended⟩
            · exact ⟨t, .done t, .failed hchunks hended⟩
          · simp only [RecvStream.pollData, hchunks, hended]
            split
            · rename_i hne
              exact ⟨t, .done t, .ended hparse hchunks hended
                (.inr ⟨⟨_, rfl⟩, by simpa using hne⟩)⟩
            · rename_i hempty
              exact ⟨t, .done t, .ended hparse hchunks hended (.inl ⟨rfl, by simpa using hempty⟩)⟩
        · have hrounds := rounds_received hchunks
          obtain ⟨t', hpulls, hend⟩ :=
            ih (t := t.received chunk { t.recvStream with chunks := chunks }) (by omega)
          simp only [RecvStream.pollData, hchunks]
          exact ⟨t', .take hparse hlimit hchunks hpulls, hend⟩

/-- What stands in front of the reader. -/
def ReadSide.ahead (t : ReadSide) : List UInt8 := t.readPending ++ t.recvStream.chunks.flatten

/-- The loop only drops empty frames from what is ahead. -/
structure Skipped (t t' : ReadSide) : Prop where
  ahead : ∃ bytes payloads, InboundFrames bytes payloads ∧ payloads.flatten = [] ∧
    t.ahead = bytes ++ t'.ahead
  readBuf : t'.readBuf = t.readBuf
  readPos : t'.readPos = t.readPos
  readClosed : t'.readClosed = t.readClosed
  ended : t'.recvStream.ended = t.recvStream.ended

theorem Pulls.skipped {t t' : ReadSide} (h : Pulls t t') : Skipped t t' := by
  induction h with
  | done t => exact ⟨⟨[], [], .nil, rfl, rfl⟩, rfl, rfl, rfl, rfl⟩
  | @skip t t' frame rest hframe hpending _ ih =>
      obtain ⟨⟨bytes, payloads, hframes, hempty, hahead⟩, hbuf, hpos, hclosed, hended⟩ := ih
      refine ⟨⟨frame ++ bytes, [] :: payloads, .cons hframe hframes, hempty, ?_⟩, hbuf, hpos,
        hclosed, hended⟩
      change rest ++ t.recvStream.chunks.flatten = _ at hahead
      rw [ReadSide.ahead, hpending, List.append_assoc, hahead, List.append_assoc]
  | @take t t' chunk chunks _ _ hchunks _ ih =>
      obtain ⟨⟨bytes, payloads, hframes, hempty, hahead⟩, hbuf, hpos, hclosed, hended⟩ := ih
      refine ⟨⟨bytes, payloads, hframes, hempty, ?_⟩, hbuf, hpos, hclosed, hended⟩
      rw [← hahead]
      simp [ReadSide.ahead, ReadSide.received, hchunks]

theorem LoopEnd.ended_eq {t : ReadSide} {room : Nat} {r : ReadSide × ReadResult}
    (h : LoopEnd t room r) : r.1.recvStream.ended = t.recvStream.ended := by
  cases h with
  | payload =>
      unfold ReadSide.deliver
      simp only
      split <;> rfl
  | _ => rfl

end Loop

/-- A read, or something that arrives while the stream has not ended. -/
inductive EventCase (t : ReadSide) : Event → ReadSide × Option ReadResult → Prop
  | read (room : Nat) : EventCase t (.read room) ((t.pollRead room).1, some (t.pollRead room).2)
  | data (chunk : List UInt8) (hopen : t.recvStream.ended = none) :
      EventCase t (.data chunk)
        (t.arrive { t.recvStream with chunks := t.recvStream.chunks ++ [chunk] }, none)
  | endStream (hopen : t.recvStream.ended = none) :
      EventCase t .endStream (t.arrive { t.recvStream with ended := some (.ok ()) }, none)
  | reset (error : StreamError) (hopen : t.recvStream.ended = none) :
      EventCase t (.reset error) (t.arrive { t.recvStream with ended := some (.error error) }, none)

theorem event_cases {t : ReadSide} {event : Event} {r : ReadSide × Option ReadResult}
    (h : t.step event = some r) : EventCase t event r := by
  cases event with
  | read room =>
      cases h
      exact .read room
  | data chunk =>
      simp only [ReadSide.step] at h
      split at h
      · cases h
        exact .data chunk ‹_›
      · cases h
  | endStream =>
      simp only [ReadSide.step] at h
      split at h
      · cases h
        exact .endStream ‹_›
      · cases h
  | reset error =>
      simp only [ReadSide.step] at h
      split at h
      · cases h
        exact .reset error ‹_›
      · cases h

end TrojanServer.GrpcReceive
