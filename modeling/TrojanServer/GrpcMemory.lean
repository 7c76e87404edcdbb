import TrojanServer.CheckedOps
import TrojanServer.GrpcWindow

namespace TrojanServer.GrpcReceive

open TrojanServer.AsyncIo
open TrojanServer.CheckedOps
open TrojanServer.GrpcCodec
open TrojanServer.StepMachine

def maxReadBufferSize : Nat := 128 * 1024

def readBufferReserve (len capacity additional : Nat) : Checked Nat := do
  let needed ← add 64 len additional
  if needed ≤ capacity then pure 0
  else
    let doubled ← mul 64 capacity 2
    let target := max needed (min doubled maxReadBufferSize)
    sub target len

/-- A buffer of `len` bytes that reserves what is returned has room for the additional
ones.  Memory holds at most `isize::MAX` bytes of a buffer. -/
structure MakesRoom (len capacity additional : Nat) : Prop where
  noUnderflow : readBufferReserve len capacity additional ≠ .error .underflow
  room : ∀ reserve, readBufferReserve len capacity additional = .ok reserve →
    len + additional ≤ max capacity (len + reserve)
  returns : capacity < 2 ^ 63 → additional < 2 ^ 63 →
    ∃ reserve, readBufferReserve len capacity additional = .ok reserve

section Reserve

variable {len capacity additional : Nat}

theorem readBufferReserve_fits (hword : len + additional < 2 ^ 64)
    (h : len + additional ≤ capacity) : readBufferReserve len capacity additional = .ok 0 := by
  simp only [readBufferReserve, add_eq_ok hword, ok_bind, if_pos h]
  rfl

theorem readBufferReserve_grows (hword : len + additional < 2 ^ 64)
    (h : capacity < len + additional) (hdouble : capacity * 2 < 2 ^ 64) :
    readBufferReserve len capacity additional =
      .ok (max (len + additional) (min (capacity * 2) maxReadBufferSize) - len) := by
  simp only [readBufferReserve, add_eq_ok hword, ok_bind, if_neg (Nat.not_le.mpr h),
    mul_eq_ok hdouble]
  exact sub_eq_ok (by omega)

theorem makesRoom_of_le (h : len ≤ capacity) : MakesRoom len capacity additional := by
  by_cases hword : len + additional < 2 ^ 64
  · rcases Nat.lt_or_ge capacity (len + additional) with hlt | hge
    · by_cases hdouble : capacity * 2 < 2 ^ 64
      · have hgrows := readBufferReserve_grows hword hlt hdouble
        refine ⟨by simp [hgrows], ?_, fun _ _ => ⟨_, hgrows⟩⟩
        intro reserve hreserve
        rw [hgrows] at hreserve
        cases hreserve
        omega
      · have hoverflow : readBufferReserve len capacity additional = .error .overflow := by
          simp only [readBufferReserve, add_eq_ok hword, ok_bind, if_neg (Nat.not_le.mpr hlt), mul,
            if_neg hdouble]
          rfl
        refine ⟨by simp [hoverflow], by simp [hoverflow], fun hcapacity => ?_⟩
        omega
    · have hfits := readBufferReserve_fits hword hge
      refine ⟨by simp [hfits], ?_, fun _ _ => ⟨_, hfits⟩⟩
      intro reserve _
      omega
  · have hoverflow : readBufferReserve len capacity additional = .error .overflow := by
      simp only [readBufferReserve, add, if_neg hword]
      rfl
    refine ⟨by simp [hoverflow], by simp [hoverflow], fun hcapacity hadditional => ?_⟩
    omega

end Reserve

section Memory

/-- Chunks of at most `limit` bytes arrive. -/
structure MemoryInv (limit : Nat) (t : ReadSide) : Prop where
  chunks : ∀ chunk ∈ t.recvStream.chunks, chunk.length ≤ limit
  pending : t.readPending.length < 5 + maxInboundFrameLen + limit
  tail : (t.readBuf.drop t.readPos).length ≤ maxInboundFrameLen
  closed : t.readClosed = true → t.readBuf.drop t.readPos = []

variable {limit room : Nat} {t t' : ReadSide}

theorem memoryInv_start (limit : Nat) (activity : Option Bool) :
    MemoryInv limit (.start activity) where
  chunks := by simp [ReadSide.start]
  pending := by
    simp only [ReadSide.start, List.length_nil, maxInboundFrameLen]
    omega
  tail := by simp [ReadSide.start]
  closed := by simp [ReadSide.start]

theorem MemoryInv.consumed {frame rest : List UInt8} (h : MemoryInv limit t)
    (hpending : t.readPending = frame ++ rest) :
    MemoryInv limit (t.consumed frame.length rest) := by
  refine ⟨h.chunks, ?_, h.tail, h.closed⟩
  have hlen := h.pending
  rw [hpending, List.length_append] at hlen
  change rest.length < _
  omega

theorem MemoryInv.pulls (h : MemoryInv limit t) (hpulls : Pulls t t') : MemoryInv limit t' := by
  induction hpulls with
  | done _ => exact h
  | skip _ hpending _ ih => exact ih (h.consumed hpending)
  | @take t t' chunk chunks hwaiting hlimit hchunks _ ih =>
      have hsmall := length_lt_of_incomplete hwaiting hlimit
      have hbound := h.chunks
      rw [hchunks] at hbound
      refine ih ⟨fun c hc => hbound c (List.mem_cons_of_mem _ hc), ?_, h.tail, h.closed⟩
      have hchunk := hbound chunk List.mem_cons_self
      change (t.readPending ++ chunk).length < _
      rw [List.length_append]
      omega

theorem length_payload_le {frame payload : List UInt8} (h : InboundFrame frame payload) :
    payload.length ≤ maxInboundFrameLen := by
  obtain ⟨⟨body, fields, hbody, -, rfl, rfl⟩, hlen⟩ := h
  have hfields := length_le_of_fields hbody
  simp only [List.length_cons, List.length_append, length_toBeBytes32] at hlen
  omega

theorem MemoryInv.close (h : MemoryInv limit t) (hread : t.readBuf.drop t.readPos = [])
    (result : Except IoError (List UInt8)) : MemoryInv limit (t.close result).1 :=
  ⟨h.chunks, h.pending, h.tail, fun _ => hread⟩

theorem MemoryInv.loopEnd {r : ReadSide × ReadResult} (h : MemoryInv limit t)
    (hopen : t.readClosed = false) (hread : t.readBuf.drop t.readPos = [])
    (hend : LoopEnd t room r) : MemoryInv limit r.1 := by
  cases hend with
  | oversized _ => exact h.close hread _
  | @payload frame payload rest hframe hpayload hpending =>
      have hnext := h.consumed hpending
      obtain ⟨buf, pos, bytes, hdeliver, hsplit, -⟩ :=
        deliver_cases (t.consumed frame.length rest) room hpayload hread
      rw [hdeliver]
      refine ⟨hnext.chunks, hnext.pending, ?_, fun hclosed => ?_⟩
      · have hlen := length_payload_le hframe
        rw [hsplit, List.length_append] at hlen
        change (buf.drop pos).length ≤ _
        omega
      · change t.readClosed = true at hclosed
        rw [hopen] at hclosed
        cases hclosed
  | malformed herror =>
      have hcase := parse_cases t.readPending
      rw [herror] at hcase
      cases hcase <;> exact ⟨h.chunks, h.pending, h.tail, h.closed⟩
  | failed _ _ => exact h.close hread _
  | ended _ _ _ _ => exact h.close hread _
  | waiting _ _ _ _ => exact h

theorem pollRead_of_closed (h : t.readClosed = true) : t.pollRead room = (t, .ready (.ok [])) := by
  rw [ReadSide.pollRead, if_pos h]

theorem memoryInv_pollRead (h : MemoryInv limit t) (room : Nat) :
    MemoryInv limit (t.pollRead room).1 := by
  cases hopen : t.readClosed with
  | true =>
      rw [pollRead_of_closed hopen]
      exact h
  | false =>
      have hcase := pollRead_cases t room
      generalize t.pollRead room = r at hcase
      cases hcase with
      | closed _ => exact h
      | @leftover buf bytes pos hsplit _ =>
          have htail := h.tail
          rw [hsplit, List.length_append] at htail
          refine ⟨h.chunks, h.pending, ?_, fun hclosed => ?_⟩
          · change (buf.drop pos).length ≤ _
            omega
          · change t.readClosed = true at hclosed
            rw [hopen] at hclosed
            cases hclosed
      | loop hread hpulls hend =>
          obtain ⟨-, hbuf, hpos, hclosed, -⟩ := hpulls.skipped
          exact (h.pulls hpulls).loopEnd (hclosed.trans hopen) (by rwa [hbuf, hpos]) hend

theorem memoryInv_step {event : Event} {o : Option ReadResult} (h : MemoryInv limit t)
    (hlimit : ∀ chunk, event = .data chunk → chunk.length ≤ limit)
    (hstep : t.step event = some (t', o)) : MemoryInv limit t' := by
  cases event_cases hstep with
  | read room => exact memoryInv_pollRead h room
  | data chunk _ =>
      refine ⟨?_, h.pending, h.tail, h.closed⟩
      intro c hc
      rcases List.mem_append.mp hc with hold | hnew
      · exact h.chunks c hold
      · obtain rfl := List.mem_singleton.mp hnew
        exact hlimit c rfl
  | endStream _ | reset _ _ => exact ⟨h.chunks, h.pending, h.tail, h.closed⟩

end Memory

section Run

theorem windowInv_step {before : Trace} {t t' : ReadSide} {event : Event} {o : Option ReadResult}
    (h : WindowInv (arrived before) t) (hstep : t.step event = some (t', o)) :
    WindowInv (arrived (before ++ [(event, o)])) t' := by
  rw [arrived_snoc]
  cases event_cases hstep with
  | read room => simpa [arrivedIn] using windowInv_pollRead h room
  | data chunk _ => exact h.arrive
  | endStream _ | reset _ _ => simpa [arrivedIn] using h.signal _

/-- Window and memory of a transport in every state it reaches.  The bytes that arrived
are the frames consumed and what is ahead, and the window given back is the length of
the former; the bound on the buffer also holds in every round of a read. -/
theorem receive_window_and_memory {limit : Nat} {activity : Option Bool} {inputs : List Event}
    {t : ReadSide} {trace : Trace}
    (hrun : run ReadSide.step (.start activity) inputs = some (t, trace))
    (hlimit : ∀ chunk, .data chunk ∈ inputs → chunk.length ≤ limit) :
    t.pendingReleaseCapacity = t.readPending.length ∧
    (∃ bytes payloads, InboundFrames bytes payloads ∧ arrived trace = bytes ++ t.ahead ∧
      t.recvStream.released = bytes.length) ∧
    t.readPending.length < 5 + maxInboundFrameLen + limit ∧
    (∀ t', Pulls t t' → t'.readPending.length < 5 + maxInboundFrameLen + limit) ∧
    (t.readBuf.drop t.readPos).length ≤ maxInboundFrameLen ∧
    (t.readClosed = true → t.readBuf.drop t.readPos = []) ∧
    ∀ len capacity additional, len ≤ capacity → MakesRoom len capacity additional := by
  have hwindow : WindowInv (arrived trace) t := by
    refine run_induction (P := fun trace t => WindowInv (arrived trace) t) hrun ?_ ?_
    · exact ⟨⟨[], [], .nil, rfl⟩, rfl, rfl⟩
    · intro _ _ _ _ _ h hstep
      exact windowInv_step h hstep
  have hmemory : MemoryInv limit t := by
    have halong : Along ReadSide.step
        (fun _ event => ∀ chunk, event = .data chunk → chunk.length ≤ limit)
        (.start activity) inputs := by
      apply along_of_mem
      rintro event hmem _ chunk rfl
      exact hlimit chunk hmem
    refine run_induction_along (P := fun _ t => MemoryInv limit t) hrun halong ?_ ?_
    · exact memoryInv_start limit activity
    · intro _ _ _ _ _ h hevent hstep
      exact memoryInv_step h hevent hstep
  obtain ⟨bytes, payloads, hframes, harrived⟩ := hwindow.frames
  refine ⟨hwindow.pending, ⟨bytes, payloads, hframes, harrived, ?_⟩, hmemory.pending,
    fun t' hpulls => (hmemory.pulls hpulls).pending, hmemory.tail, hmemory.closed,
    fun _ _ _ h => makesRoom_of_le h⟩
  have hreleased := hwindow.released
  rw [harrived, List.length_append] at hreleased
  omega

/-- An empty hunk and a hunk of two bytes in one chunk, read with room for one byte. -/
theorem receive_window_two_frames :
    ∃ t trace, run ReadSide.step (.start none)
        [.data [0, 0, 0, 0, 2, 0x0A, 0, 0, 0, 0, 0, 4, 0x0A, 2, 7, 8], .read 1] = some (t, trace) ∧
      t.recvStream.released = 16 ∧ t.readBuf.drop t.readPos = [8] ∧
      t.pendingReleaseCapacity = t.readPending.length := by
  obtain ⟨t, trace, hrun, hreleased, htail⟩ : ∃ t trace, run ReadSide.step (.start none)
      [.data [0, 0, 0, 0, 2, 0x0A, 0, 0, 0, 0, 0, 4, 0x0A, 2, 7, 8], .read 1] = some (t, trace) ∧
      t.recvStream.released = 16 ∧ t.readBuf.drop t.readPos = [8] := ⟨_, _, rfl, rfl, rfl⟩
  have hlimit : ∀ chunk, .data chunk ∈ ([.data [0, 0, 0, 0, 2, 0x0A, 0, 0, 0, 0, 0, 4, 0x0A, 2, 7,
      8], .read 1] : List Event) → chunk.length ≤ 16 := by
    simp
  exact ⟨t, trace, hrun, hreleased, htail, (receive_window_and_memory hrun hlimit).1⟩

end Run

end TrojanServer.GrpcReceive
