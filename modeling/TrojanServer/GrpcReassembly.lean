import TrojanServer.GrpcInbound

namespace TrojanServer.GrpcReceive

open TrojanServer.AsyncIo
open TrojanServer.GrpcCodec
open TrojanServer.StepMachine

def arrivedIn : Event → List UInt8
  | .data chunk => chunk
  | _ => []

def arrived (trace : Trace) : List UInt8 := trace.flatMap fun event => arrivedIn event.1

def returnedBy : Option ReadResult → List UInt8
  | some (.ready (.ok bytes)) => bytes
  | _ => []

def returned (trace : Trace) : List UInt8 := trace.flatMap fun event => returnedBy event.2

/-- End of file, a read of no bytes, or an error. -/
def IsTerminal (result : ReadResult) : Prop :=
  result = .ready (.ok []) ∨ ∃ e, result = .ready (.error e)

def Unfinished (trace : Trace) : Prop :=
  ∀ entry ∈ trace, ∀ result, entry.2 = some result → ¬ IsTerminal result

def Ended (trace : Trace) : Prop := Event.endStream ∈ trace.map Prod.fst

/-- The peer does not reset the stream, and every read has room for a byte. -/
def Regular (event : Event) : Prop :=
  (∀ error, event ≠ .reset error) ∧ ∀ room, event = .read room → 0 < room

section Read

/-- What a read does. -/
inductive ReadCase (t : ReadSide) (room : Nat) : ReadSide × ReadResult → Prop
  | closed (hclosed : t.readClosed = true) : ReadCase t room (t, .ready (.ok []))
  | leftover {buf bytes : List UInt8} {pos : Nat}
      (hsplit : t.readBuf.drop t.readPos = bytes ++ buf.drop pos)
      (hprogress : 0 < room → bytes ≠ []) :
      ReadCase t room ({ t with readBuf := buf, readPos := pos }, .ready (.ok bytes))
  | loop {t' : ReadSide} {r : ReadSide × ReadResult} (hread : t.readBuf.drop t.readPos = [])
      (hpulls : Pulls t t') (hend : LoopEnd t' room r) : ReadCase t room r

theorem take_min_ne_nil {bytes : List UInt8} {room : Nat} (hbytes : bytes ≠ [])
    (hroom : 0 < room) : bytes.take (min bytes.length room) ≠ [] := by
  have hpos := List.length_pos_iff.mpr hbytes
  rw [← List.length_pos_iff, List.length_take]
  omega

theorem pollRead_cases (t : ReadSide) (room : Nat) : ReadCase t room (t.pollRead room) := by
  unfold ReadSide.pollRead
  split
  · rename_i hclosed
    exact .closed hclosed
  split
  · rename_i hlt
    have hne : t.readBuf.drop t.readPos ≠ [] := by simpa using hlt
    have hlen : (t.readBuf.drop t.readPos).length = t.readBuf.length - t.readPos :=
      List.length_drop
    simp only
    split
    · rename_i hall
      apply ReadCase.leftover _ (take_min_ne_nil hne)
      rw [List.drop_nil, List.append_nil, List.take_of_length_le (by omega)]
    · apply ReadCase.leftover _ (take_min_ne_nil hne)
      rw [← List.drop_drop, List.take_append_drop]
  · rename_i hlt
    obtain ⟨t', hpulls, hend⟩ := pollReadLoop_cases room (Nat.le_refl t.rounds)
    exact .loop (List.drop_eq_nil_of_le (Nat.not_lt.mp hlt)) hpulls hend

theorem ended_pollRead (t : ReadSide) (room : Nat) :
    (t.pollRead room).1.recvStream.ended = t.recvStream.ended := by
  have hcase := pollRead_cases t room
  generalize t.pollRead room = r at hcase
  cases hcase with
  | closed _ => rfl
  | leftover _ _ => rfl
  | loop _ hpulls hend => exact hend.ended_eq.trans hpulls.skipped.ended

theorem deliver_cases (t : ReadSide) {payload : List UInt8} (room : Nat) (hpayload : payload ≠ [])
    (hread : t.readBuf.drop t.readPos = []) :
    ∃ buf pos bytes, t.deliver payload room =
        ({ t with readBuf := buf, readPos := pos }, .ready (.ok bytes)) ∧
      payload = bytes ++ buf.drop pos ∧ (0 < room → bytes ≠ []) := by
  unfold ReadSide.deliver
  simp only
  split
  · refine ⟨_, _, _, rfl, ?_, take_min_ne_nil hpayload⟩
    rw [List.drop_zero, List.take_append_drop]
  · rename_i hall
    refine ⟨t.readBuf, t.readPos, _, rfl, ?_, take_min_ne_nil hpayload⟩
    rw [hread, List.append_nil, List.take_of_length_le (Nat.not_lt.mp hall)]

end Read

section Lengths

theorem length_le_of_fields {body : List UInt8} {fields : List (List UInt8)}
    (h : Fields body fields) : fields.flatten.length ≤ body.length := by
  induction h with
  | nil => simp
  | cons _ _ ih =>
      simp only [List.flatten_cons, List.length_append, List.length_cons] at ih ⊢
      omega

theorem InboundFrames.length_le {bytes : List UInt8} {payloads : List (List UInt8)}
    (h : InboundFrames bytes payloads) : payloads.flatten.length ≤ bytes.length := by
  induction h with
  | nil => simp
  | cons hframe _ ih =>
      obtain ⟨⟨body, fields, hbody, -, rfl, rfl⟩, -⟩ := hframe
      have hlen := length_le_of_fields hbody
      simp only [List.flatten_cons, List.length_append, List.length_cons] at ih ⊢
      omega

end Lengths

section Invariant

structure ReadInv (trace : Trace) (t : ReadSide) : Prop where
  frames : ∃ bytes payloads, InboundFrames bytes payloads ∧ arrived trace = bytes ++ t.ahead ∧
    payloads.flatten = returned trace ++ t.readBuf.drop t.readPos
  isOpen : t.readClosed = false

/-- The stream is at its end once the peer has ended it. -/
def EndInv (trace : Trace) (r : RecvStream) : Prop :=
  Ended trace ∧ r.ended = some (.ok ()) ∨ ¬ Ended trace ∧ r.ended = none

/-- A terminal result as a verdict on what arrived and whatever may follow it. -/
def Verdict (before : Trace) (result : ReadResult) : Prop :=
  ∃ bytes payloads rest, InboundFrames bytes payloads ∧ arrived before = bytes ++ rest ∧
    payloads.flatten = returned before ∧
    (∀ more, (Ended before → more = []) → Stuck (rest ++ more)) ∧
    (result = .ready (.ok []) ∧ rest = [] ∧ Ended before ∨
      (∃ e, result = .ready (.error e)) ∧ rest ≠ [])

structure ReadSpec (before : Trace) (room : Nat) (r : ReadSide × ReadResult) : Prop where
  terminal : IsTerminal r.2 → Verdict before r.2
  ready : Ended before → r.2 ≠ .pending
  continues : ¬ IsTerminal r.2 → ReadInv (before ++ [(.read room, some r.2)]) r.1

@[simp] theorem arrived_snoc (before : Trace) (event : Event) (o : Option ReadResult) :
    arrived (before ++ [(event, o)]) = arrived before ++ arrivedIn event := by
  simp [arrived]

@[simp] theorem returned_snoc (before : Trace) (event : Event) (o : Option ReadResult) :
    returned (before ++ [(event, o)]) = returned before ++ returnedBy o := by
  simp [returned]

@[simp] theorem ended_snoc (before : Trace) (event : Event) (o : Option ReadResult) :
    Ended (before ++ [(event, o)]) ↔ Ended before ∨ event = .endStream := by
  simp [Ended, eq_comm]

variable {before : Trace} {t t' : ReadSide} {room : Nat}

theorem EndInv.ended_of_some {r : RecvStream} {result : Except StreamError Unit}
    (h : EndInv before r) (hsome : r.ended = some result) : Ended before ∧ result = .ok () := by
  rcases h with ⟨hended, hok⟩ | ⟨-, hnone⟩
  · exact ⟨hended, Option.some.inj (hsome.symm.trans hok)⟩
  · rw [hsome] at hnone
    cases hnone

theorem EndInv.not_ended_of_none {r : RecvStream} (h : EndInv before r) (hnone : r.ended = none) :
    ¬ Ended before := by
  rcases h with ⟨-, hok⟩ | ⟨hnot, -⟩
  · rw [hnone] at hok
    cases hok
  · exact hnot

/-- The empty frames the loop skips join those taken apart before. -/
theorem ReadInv.pulls (hinv : ReadInv before t) (hpulls : Pulls t t') : ReadInv before t' := by
  obtain ⟨⟨bytes, payloads, hframes, harrived, hreturned⟩, hopen⟩ := hinv
  obtain ⟨⟨skipped, empties, hskipped, hempty, hahead⟩, hbuf, hpos, hclosed, -⟩ := hpulls.skipped
  refine ⟨⟨_, _, hframes.append hskipped, ?_, ?_⟩, by rw [hclosed, hopen]⟩
  · rw [harrived, hahead, List.append_assoc]
  · rw [List.flatten_append, hempty, hreturned, hbuf, hpos, List.append_nil]

theorem readSpec_of_bytes {r : ReadSide} {out : List UInt8} (hout : out ≠ [])
    (hinv : ReadInv (before ++ [(.read room, some (.ready (.ok out)))]) r) :
    ReadSpec before room (r, .ready (.ok out)) where
  terminal := by
    rintro (h | ⟨e, h⟩)
    · cases h
      exact absurd rfl hout
    · cases h
  ready _ := by simp
  continues _ := hinv

theorem readSpec_of_error {r : ReadSide} {e : IoError} (hinv : ReadInv before t)
    (hread : t.readBuf.drop t.readPos = [])
    (hpending : t.readPending ≠ [])
    (hstuck : ∀ more, (Ended before → more = []) → Stuck (t.ahead ++ more)) :
    ReadSpec before room (r, .ready (.error e)) where
  terminal _ := by
    obtain ⟨bytes, payloads, hframes, harrived, hreturned⟩ := hinv.frames
    rw [hread, List.append_nil] at hreturned
    exact ⟨bytes, payloads, t.ahead, hframes, harrived, hreturned, hstuck,
      .inr ⟨⟨e, rfl⟩, by simp [ReadSide.ahead, hpending]⟩⟩
  ready _ := by simp
  continues h := absurd (.inr ⟨e, rfl⟩) h

theorem loopEnd_spec {r : ReadSide × ReadResult} (hinv : ReadInv before t)
    (hend : EndInv before t.recvStream) (hread : t.readBuf.drop t.readPos = []) (hroom : 0 < room)
    (hloop : LoopEnd t room r) : ReadSpec before room r := by
  cases hloop with
  | oversized hlimit =>
      refine readSpec_of_error hinv hread ?_ fun more _ => ?_
      · intro hnil
        have hdeclared := (declared_of_oversized hlimit).1
        rw [hnil] at hdeclared
        cases hdeclared
      · rw [ReadSide.ahead, List.append_assoc]
        exact stuck_append_of_oversized hlimit _
  | @payload frame payload rest hframe hpayload hpending =>
      obtain ⟨⟨bytes, payloads, hframes, harrived, hreturned⟩, hopen⟩ := hinv
      obtain ⟨buf, pos, out, hdeliver, hsplit, hprogress⟩ :=
        deliver_cases (t.consumed frame.length rest) room hpayload hread
      rw [hdeliver]
      refine readSpec_of_bytes (hprogress hroom)
        ⟨⟨_, _, hframes.append (.single hframe), ?_, ?_⟩, hopen⟩
      · rw [arrived_snoc, harrived, ReadSide.ahead, hpending]
        simp [arrivedIn, ReadSide.ahead, ReadSide.consumed]
      · rw [hread, List.append_nil] at hreturned
        rw [returned_snoc, List.flatten_append, hreturned, List.flatten_singleton, hsplit,
          List.append_assoc]
        rfl
  | @malformed e rest herror =>
      refine readSpec_of_error hinv hread ?_ fun more _ => ?_
      · intro hnil
        rw [hnil] at herror
        cases herror
      · rw [ReadSide.ahead, List.append_assoc]
        exact stuck_append_of_error herror _
  | failed _ hfailed => cases (hend.ended_of_some hfailed).2
  | @ended result hwaiting hchunks heos hresult =>
      have hahead : t.ahead = t.readPending := by simp [ReadSide.ahead, hchunks]
      obtain ⟨hin, -⟩ := hend.ended_of_some heos
      have hstuck : ∀ more, (Ended before → more = []) → Stuck (t.ahead ++ more) := by
        intro more hmore
        rw [hmore hin, List.append_nil, hahead]
        exact stuck_of_parse hwaiting
      rcases hresult with ⟨rfl, hnil⟩ | ⟨⟨e, rfl⟩, hne⟩
      · refine ⟨fun _ => ?_, by simp [ReadSide.close], fun h => absurd (.inl rfl) h⟩
        obtain ⟨bytes, payloads, hframes, harrived, hreturned⟩ := hinv.frames
        rw [hread, List.append_nil] at hreturned
        exact ⟨bytes, payloads, t.ahead, hframes, harrived, hreturned, hstuck,
          .inl ⟨rfl, hahead.trans hnil, hin⟩⟩
      · exact readSpec_of_error hinv hread hne hstuck
  | waiting _ _ _ hnone =>
      refine ⟨?_, ?_, fun _ => ⟨?_, hinv.isOpen⟩⟩
      · rintro (h | ⟨e, h⟩) <;> cases h
      · exact fun hin => absurd hin (hend.not_ended_of_none hnone)
      · simpa [arrivedIn, returnedBy] using hinv.frames

theorem readSpec_pollRead (hinv : ReadInv before t) (hend : EndInv before t.recvStream)
    (hroom : 0 < room) : ReadSpec before room (t.pollRead room) := by
  have hcase := pollRead_cases t room
  generalize t.pollRead room = r at hcase
  cases hcase with
  | closed hclosed =>
      rw [hinv.isOpen] at hclosed
      cases hclosed
  | @leftover buf out pos hsplit hprogress =>
      obtain ⟨⟨bytes, payloads, hframes, harrived, hreturned⟩, hopen⟩ := hinv
      refine readSpec_of_bytes (hprogress hroom) ⟨⟨bytes, payloads, hframes, ?_, ?_⟩, hopen⟩
      · rw [arrived_snoc, harrived]
        exact List.append_nil _
      · rw [returned_snoc, hreturned, hsplit, List.append_assoc]
        rfl
  | @loop t' r hread hpulls hloop =>
      obtain ⟨-, hbuf, hpos, -, hended⟩ := hpulls.skipped
      exact loopEnd_spec (hinv.pulls hpulls) (by rwa [EndInv, hended]) (by rwa [hbuf, hpos]) hroom
        hloop

end Invariant

section Run

def RunInv (trace : Trace) (t : ReadSide) : Prop :=
  EndInv trace t.recvStream ∧ (Unfinished trace → ReadInv trace t)

/-- What holds of an event, given the history before it. -/
structure EventSpec (before : Trace) (event : Event) (o : Option ReadResult) : Prop where
  data : ∀ chunk, event = .data chunk → ¬ Ended before
  read : ∀ room, event = .read room → ∃ result, o = some result ∧ (Unfinished before →
    (IsTerminal result → Verdict before result) ∧ (Ended before → result ≠ .pending))

theorem Unfinished.before {before after : Trace} (h : Unfinished (before ++ after)) :
    Unfinished before :=
  fun entry hmem => h entry (List.mem_append_left _ hmem)

variable {before trace : Trace} {t : ReadSide}

/-- Something arrives: it stands behind what was ahead. -/
theorem runInv_arrive {event : Event} {r : RecvStream} (hinv : RunInv before t)
    (hend : EndInv (before ++ [(event, none)]) r)
    (hahead : r.chunks.flatten = t.recvStream.chunks.flatten ++ arrivedIn event) :
    RunInv (before ++ [(event, none)]) (t.arrive r) := by
  refine ⟨hend, fun hunfinished => ?_⟩
  obtain ⟨⟨bytes, payloads, hframes, harrived, hreturned⟩, hopen⟩ := hinv.2 hunfinished.before
  refine ⟨⟨bytes, payloads, hframes, ?_, ?_⟩, hopen⟩
  · rw [arrived_snoc, harrived]
    simp [ReadSide.ahead, ReadSide.arrive, hahead]
  · rw [returned_snoc, hreturned]
    simp [returnedBy, ReadSide.arrive]

theorem runInv_step {event : Event} {t' : ReadSide} {o : Option ReadResult}
    (hinv : RunInv before t) (hregular : Regular event) (hstep : t.step event = some (t', o)) :
    RunInv (before ++ [(event, o)]) t' ∧ EventSpec before event o := by
  cases event_cases hstep with
  | read room =>
      have hspec := fun h => readSpec_pollRead (hinv.2 h) hinv.1 (hregular.2 room rfl)
      refine ⟨⟨?_, fun hunfinished => ?_⟩, ⟨by simp, ?_⟩⟩
      · have hend := hinv.1
        simpa [EndInv, ended_pollRead] using hend
      · exact (hspec hunfinished.before).continues (hunfinished (.read room, _) (by simp) _ rfl)
      · intro _ _
        exact ⟨_, rfl, fun h => ⟨(hspec h).terminal, (hspec h).ready⟩⟩
  | data chunk hopen =>
      have hnot := hinv.1.not_ended_of_none hopen
      refine ⟨runInv_arrive hinv (.inr ⟨by simp [hnot], hopen⟩) (by simp [arrivedIn]), ?_⟩
      exact ⟨fun _ _ => hnot, by simp⟩
  | endStream _ =>
      refine ⟨runInv_arrive hinv (.inl ⟨by simp, rfl⟩) (by simp [arrivedIn]), ?_⟩
      exact ⟨by simp, by simp⟩
  | reset error _ => exact absurd rfl (hregular.1 error)

theorem runInv_run {activity : Option Bool} {inputs : List Event}
    (hrun : run ReadSide.step (.start activity) inputs = some (t, trace))
    (hregular : ∀ event ∈ inputs, Regular event) :
    RunInv trace t ∧ ∀ before event o after, trace = before ++ (event, o) :: after →
      EventSpec before event o := by
  have halong : Along ReadSide.step (fun _ event => Regular event) (.start activity) inputs :=
    along_of_mem (fun event hmem _ => hregular event hmem) _
  apply run_induction_events hrun halong
  · exact ⟨.inr ⟨by simp [Ended], rfl⟩, fun _ => ⟨⟨[], [], .nil, rfl, rfl⟩, rfl⟩⟩
  · intro trace s event s' o hinv hevent hstep
    exact runInv_step hinv hevent hstep

/-- Nothing arrives after the end of the stream. -/
theorem arrived_eq_nil {after : Trace} (hended : Ended before)
    (h : ∀ before' event o after', before ++ after = before' ++ (event, o) :: after' →
      EventSpec before' event o) : arrived after = [] := by
  apply List.flatMap_eq_nil_iff.mpr
  rintro ⟨event, o⟩ hmem
  obtain ⟨between, later, rfl⟩ := List.append_of_mem hmem
  cases event with
  | data chunk =>
      have hspec := h (before ++ between) (.data chunk) o later (by simp)
      refine absurd ?_ (hspec.data chunk rfl)
      simp only [Ended, List.map_append, List.mem_append] at hended ⊢
      exact .inl hended
  | _ => rfl

def reads (trace : Trace) : Nat :=
  trace.countP fun event => match event.1 with
    | .read _ => true
    | _ => false

/-- A read that is neither pending nor terminal has returned something. -/
theorem reads_le_returned {after : Trace} (hended : Ended before)
    (hunfinished : Unfinished (before ++ after))
    (h : ∀ before' event o after', before ++ after = before' ++ (event, o) :: after' →
      EventSpec before' event o) : reads after ≤ (returned after).length := by
  induction after generalizing before with
  | nil => simp [reads]
  | cons event after ih =>
      obtain ⟨event, o⟩ := event
      have hrest : reads after ≤ (returned after).length := by
        refine @ih (before ++ [(event, o)]) ?_ ?_ ?_
        · simp [hended]
        · simpa using hunfinished
        · simpa using h
      have hcount : reads ((event, o) :: after) =
          reads after + reads [(event, o)] := by
        simp only [reads, List.countP_cons, List.countP_nil]
        omega
      have hreturned : returned ((event, o) :: after) = returnedBy o ++ returned after := by
        simp [returned]
      rw [hcount, hreturned, List.length_append]
      suffices hone : reads [(event, o)] ≤ (returnedBy o).length by omega
      cases event with
      | read room =>
          obtain ⟨result, rfl, hspec⟩ := (h before _ _ _ rfl).read room rfl
          have hnot : ¬ IsTerminal result :=
            hunfinished (.read room, some result) (by simp) result rfl
          rcases result with (e | bytes) | _
          · exact absurd (.inr ⟨e, rfl⟩) hnot
          · have hne : bytes ≠ [] := by
              rintro rfl
              exact hnot (.inl rfl)
            simpa [reads, returnedBy, Nat.one_le_iff_ne_zero] using hne
          · exact absurd rfl ((hspec hunfinished.before).2 hended)
      | _ => simp [reads]

theorem arrived_append (before after : Trace) :
    arrived (before ++ after) = arrived before ++ arrived after := List.flatMap_append

theorem length_returned_le (hinv : ReadInv trace t) :
    (returned trace).length ≤ (arrived trace).length := by
  obtain ⟨bytes, payloads, hframes, harrived, hreturned⟩ := hinv.frames
  have hle := hframes.length_le
  rw [hreturned, List.length_append] at hle
  rw [harrived, List.length_append]
  omega

/-- However the stream is cut into chunks and read, the bytes returned before the
first terminal result are the payloads of the longest sequence of acceptable frames
it starts with, and that result is end of file exactly if nothing else was sent.
After the end of the stream it comes within as many reads as bytes were sent. -/
theorem poll_read_reassembles {activity : Option Bool} {inputs : List Event}
    (hrun : run ReadSide.step (.start activity) inputs = some (t, trace))
    (hregular : ∀ event ∈ inputs, Regular event) :
    (∀ before room result after, trace = before ++ (.read room, some result) :: after →
      Unfinished before → IsTerminal result →
      (∃ bytes payloads, LongestFrames (arrived trace) bytes payloads) ∧
      ∀ bytes payloads, LongestFrames (arrived trace) bytes payloads →
        returned before = payloads.flatten ∧
        (result = .ready (.ok []) ↔ bytes = arrived trace)) ∧
    ∀ before o after, trace = before ++ (.endStream, o) :: after → Unfinished trace →
      reads after ≤ (arrived trace).length := by
  obtain ⟨hinv, hevents⟩ := runInv_run hrun hregular
  constructor
  · rintro before room result after rfl hunfinished hterminal
    obtain ⟨result', hresult', hspec⟩ := (hevents before _ _ after rfl).read room rfl
    cases hresult'
    obtain ⟨bytes, payloads, rest, hframes, harrived, hreturned, hstuck, hverdict⟩ :=
      (hspec hunfinished).1 hterminal
    -- what came after the verdict does not change it
    have hlater : Ended before → arrived ((.read room, some result) :: after) = [] :=
      fun hended => arrived_eq_nil hended hevents
    have hlongest : LongestFrames (arrived (before ++ (.read room, some result) :: after))
        bytes payloads := by
      rw [arrived_append, harrived, List.append_assoc]
      exact longestFrames_of_stuck hframes (hstuck _ hlater)
    refine ⟨⟨bytes, payloads, hlongest⟩, ?_⟩
    intro bytes' payloads' hlongest'
    obtain ⟨rfl, rfl⟩ := hlongest.unique hlongest'
    refine ⟨hreturned.symm, ?_⟩
    rw [arrived_append, harrived, List.append_assoc, List.self_eq_append_right,
      List.append_eq_nil_iff]
    rcases hverdict with ⟨heof, hrest, hended⟩ | ⟨⟨e, rfl⟩, hrest⟩
    · exact iff_of_true heof ⟨hrest, hlater hended⟩
    · simp [hrest]
  · rintro before o after rfl hunfinished
    have hreads : reads after ≤ (returned after).length := by
      refine @reads_le_returned (before ++ [(.endStream, o)]) after ?_ ?_ ?_
      · simp
      · simpa using hunfinished
      · simpa using hevents
    have hreturned : (returned after).length ≤
        (returned (before ++ (.endStream, o) :: after)).length := by
      simp only [returned, List.flatMap_append, List.flatMap_cons, List.length_append]
      omega
    exact (hreads.trans hreturned).trans (length_returned_le (hinv.2 hunfinished))

/-- A frame that arrives in two pieces, read one byte at a time. -/
theorem poll_read_reassembles_pieces :
    let trace : Trace :=
      [(.data [0, 0, 0, 0, 4, 0x0A], none), (.read 1, some .pending), (.data [2, 7, 8], none),
        (.endStream, none), (.read 1, some (.ready (.ok [7]))),
        (.read 1, some (.ready (.ok [8]))), (.read 1, some (.ready (.ok [])))]
    ∀ bytes payloads, LongestFrames (arrived trace) bytes payloads →
      [7, 8] = payloads.flatten ∧ bytes = arrived trace := by
  intro trace bytes payloads hlongest
  obtain ⟨t, hrun⟩ : ∃ t, run ReadSide.step (.start none) (trace.map Prod.fst) =
      some (t, trace) := ⟨_, rfl⟩
  have hregular : ∀ event ∈ trace.map Prod.fst, Regular event := by
    simp [trace, Regular]
  have hread := (poll_read_reassembles hrun hregular).1 (trace.take 6) 1 (.ready (.ok [])) []
    rfl (by simp [trace, Unfinished, IsTerminal]) (.inl rfl)
  obtain ⟨hreturned, heof⟩ := hread.2 bytes payloads hlongest
  exact ⟨hreturned, heof.mp rfl⟩

end Run

end TrojanServer.GrpcReceive
