import TrojanServer.PollCopy

namespace TrojanServer.PollCopy

open TrojanServer.AsyncIo
open TrojanServer.FifoTransfer

namespace DirectionalBuffer

inductive CopyCase (d : DirectionalBuffer) : CopyPoint → IoCall → CopyStep → Prop
  | wroteZero :
      CopyCase d .write (.pollWrite d.unwritten (.ready (.ok 0)))
        (.done d (.ready (.error writeZeroError)))
  | wrote {i : Nat} (hpos : 0 < i) (hle : i ≤ d.unwritten.length) :
      CopyCase d .write (.pollWrite d.unwritten (.ready (.ok i)))
        (.call { d with pos := d.pos + i, amt := d.amt + i }
          { d with pos := d.pos + i, amt := d.amt + i }.loopHead)
  | writeFailed {e : IoError} :
      CopyCase d .write (.pollWrite d.unwritten (.ready (.error e)))
        (.done d (.ready (.error e)))
  | writeStalled (hfull : d.readDone = false → d.buf.length ≤ d.cap) :
      CopyCase d .write (.pollWrite d.unwritten .pending) (.done d .pending)
  | writeProbes (hread : d.readDone = false) (hroom : d.cap < d.buf.length) :
      CopyCase d .write (.pollWrite d.unwritten .pending) (.call d .probe)
  | probedEof :
      CopyCase d .probe (.pollRead (d.buf.length - d.cap) (.ready (.ok [])))
        (.done { d with readDone := true } .pending)
  | probed {bytes : List UInt8} (hne : bytes ≠ [])
      (hle : bytes.length ≤ d.buf.length - d.cap) :
      CopyCase d .probe (.pollRead (d.buf.length - d.cap) (.ready (.ok bytes)))
        (.done { d with buf := d.fill d.cap bytes, cap := d.cap + bytes.length } .pending)
  | probeFailed {e : IoError} :
      CopyCase d .probe (.pollRead (d.buf.length - d.cap) (.ready (.error e)))
        (.done d (.ready (.error e)))
  | probePending :
      CopyCase d .probe (.pollRead (d.buf.length - d.cap) .pending) (.done d .pending)
  | flushed :
      CopyCase d .flush (.pollFlush (.ready (.ok ())))
        (.call { d with flushOk := true } d.afterFlush)
  | flushFailed {e : IoError} :
      CopyCase d .flush (.pollFlush (.ready (.error e))) (.done d (.ready (.error e)))
  | flushPending :
      CopyCase d .flush (.pollFlush .pending) (.call d d.afterFlush)
  | shutDown {result : Except IoError Unit} :
      CopyCase d .shutdown (.pollShutdown (.ready result))
        (.done { d with shutdownDone := true } (.ready (.ok ())))
  | shutdownPending :
      CopyCase d .shutdown (.pollShutdown .pending) (.done d .pending)
  | readEof :
      CopyCase d .read (.pollRead d.buf.length (.ready (.ok [])))
        (.call { d with readDone := true } { d with readDone := true }.loopHead)
  | read {bytes : List UInt8} (hne : bytes ≠ []) (hle : bytes.length ≤ d.buf.length) :
      CopyCase d .read (.pollRead d.buf.length (.ready (.ok bytes)))
        (.call { d with buf := d.fill 0 bytes, pos := 0, cap := bytes.length }
          { d with buf := d.fill 0 bytes, pos := 0, cap := bytes.length }.loopHead)
  | readFailed {e : IoError} :
      CopyCase d .read (.pollRead d.buf.length (.ready (.error e)))
        (.done d (.ready (.error e)))
  | readPending :
      CopyCase d .read (.pollRead d.buf.length .pending) (.done d .pending)

theorem step_cases {d : DirectionalBuffer} {point : CopyPoint} {c : IoCall}
    {out : CopyStep} (h : d.step point c = some out) : CopyCase d point c out := by
  cases point with
  | write =>
      cases c with
      | pollWrite slice result =>
          simp only [step] at h
          split at h
          · rename_i hslice
            subst hslice
            rcases result with (e | i) | _
            · cases h
              exact .writeFailed
            · rcases i with _ | i
              · cases h
                exact .wroteZero
              · simp only at h
                split at h
                · rename_i hle
                  cases h
                  exact .wrote (Nat.succ_pos i) hle
                · simp at h
            · simp only at h
              split at h
              · rename_i hprobe
                simp only [Bool.and_eq_true, Bool.not_eq_true', decide_eq_true_eq] at hprobe
                cases h
                exact .writeProbes hprobe.1 hprobe.2
              · rename_i hprobe
                cases h
                exact .writeStalled fun hread => by simpa [hread] using hprobe
          · simp at h
      | _ => simp [step] at h
  | probe =>
      cases c with
      | pollRead room result =>
          simp only [step] at h
          split at h
          · rename_i hroom
            subst hroom
            rcases result with (e | bytes) | _
            · cases h
              exact .probeFailed
            · simp only at h
              split at h
              · rename_i hle
                split at h
                · rename_i hzero
                  obtain rfl := List.eq_nil_of_length_eq_zero hzero
                  cases h
                  exact .probedEof
                · rename_i hzero
                  cases h
                  exact .probed (fun hnil => hzero (by simp [hnil])) hle
              · simp at h
            · cases h
              exact .probePending
          · simp at h
      | _ => simp [step] at h
  | flush =>
      cases c with
      | pollFlush result =>
          simp only [step] at h
          rcases result with (e | _) | _
          · cases h
            exact .flushFailed
          · cases h
            exact .flushed
          · cases h
            exact .flushPending
      | _ => simp [step] at h
  | shutdown =>
      cases c with
      | pollShutdown result =>
          simp only [step] at h
          rcases result with result | _
          · cases h
            exact .shutDown
          · cases h
            exact .shutdownPending
      | _ => simp [step] at h
  | read =>
      cases c with
      | pollRead room result =>
          simp only [step] at h
          split at h
          · rename_i hroom
            subst hroom
            rcases result with (e | bytes) | _
            · cases h
              exact .readFailed
            · simp only at h
              split at h
              · rename_i hle
                by_cases hzero : bytes.length = 0
                · obtain rfl := List.eq_nil_of_length_eq_zero hzero
                  simp only [List.length_nil, if_true] at h
                  cases h
                  exact .readEof
                · simp only [hzero, if_false] at h
                  cases h
                  exact .read (fun hnil => hzero (by simp [hnil])) hle
              · simp at h
            · cases h
              exact .readPending
          · simp at h
      | _ => simp [step] at h

/-- The call is the one the code makes at this point, and the stream kept the
contract of the call. -/
def Expected (d : DirectionalBuffer) : CopyPoint → IoCall → Prop
  | .write, .pollWrite slice result =>
      slice = d.unwritten ∧ ∀ i, result = .ready (.ok i) → i ≤ slice.length
  | .probe, .pollRead room result =>
      room = d.buf.length - d.cap ∧ ∀ bytes, result = .ready (.ok bytes) → bytes.length ≤ room
  | .flush, .pollFlush _ => True
  | .shutdown, .pollShutdown _ => True
  | .read, .pollRead room result =>
      room = d.buf.length ∧ ∀ bytes, result = .ready (.ok bytes) → bytes.length ≤ room
  | _, _ => False

/-- No behaviour of a stream that keeps the contract is left out. -/
theorem step_isSome_iff (d : DirectionalBuffer) (point : CopyPoint) (c : IoCall) :
    (d.step point c).isSome = true ↔ d.Expected point c := by
  cases point with
  | write =>
      cases c with
      | pollWrite slice result =>
          by_cases hslice : slice = d.unwritten
          · rcases result with (e | _ | i) | _
            · simp [step, Expected, hslice]
            · simp [step, Expected, hslice]
            · by_cases hle : i + 1 ≤ slice.length
              · simp [step, Expected, ← hslice, hle]
              · simp [step, Expected, ← hslice, hle]
            · cases hprobe : !d.readDone && decide (d.cap < d.buf.length) <;>
                simp [step, Expected, hslice, hprobe]
          · simp [step, Expected, hslice]
      | _ => simp [step, Expected]
  | probe =>
      cases c with
      | pollRead room result =>
          by_cases hroom : room = d.buf.length - d.cap
          · rcases result with (e | bytes) | _
            · simp [step, Expected, hroom]
            · by_cases hle : bytes.length ≤ room <;> by_cases hempty : bytes = [] <;>
                simp [step, Expected, ← hroom, hle, hempty]
            · simp [step, Expected, hroom]
          · simp [step, Expected, hroom]
      | _ => simp [step, Expected]
  | flush =>
      cases c with
      | pollFlush result => rcases result with (e | ⟨⟩) | _ <;> simp [step, Expected]
      | _ => simp [step, Expected]
  | shutdown =>
      cases c with
      | pollShutdown result => cases result <;> simp [step, Expected]
      | _ => simp [step, Expected]
  | read =>
      cases c with
      | pollRead room result =>
          by_cases hroom : room = d.buf.length
          · rcases result with (e | bytes) | _
            · simp [step, Expected, hroom]
            · by_cases hle : bytes.length ≤ room <;> simp [step, Expected, ← hroom, hle]
            · simp [step, Expected, hroom]
          · simp [step, Expected, hroom]
      | _ => simp [step, Expected]

/-- Offsets are in range, and a direction is only done once its reader hit EOF
and nothing is left to write. -/
structure WellFormed (d : DirectionalBuffer) : Prop where
  pos_le_cap : d.pos ≤ d.cap
  cap_le_length : d.cap ≤ d.buf.length
  done_drained : d.shutdownDone = true → d.readDone = true ∧ d.pos = d.cap

/-- What the code knows about the buffer at each of its I/O calls. -/
def Located (d : DirectionalBuffer) : CopyPoint → Prop
  | .write => d.pos < d.cap
  | .probe => d.readDone = false ∧ d.cap < d.buf.length
  | .flush => d.pos = d.cap
  | .shutdown => d.pos = d.cap ∧ d.readDone = true
  | .read => d.pos = d.cap ∧ d.readDone = false

theorem wellFormed_new (bufSize : Nat) : (new bufSize).WellFormed where
  pos_le_cap := Nat.le_refl 0
  cap_le_length := Nat.zero_le _
  done_drained := by simp [new]

theorem located_loopHead {d : DirectionalBuffer} (h : d.pos ≤ d.cap) :
    d.Located d.loopHead := by
  unfold loopHead
  split
  · assumption
  · exact Nat.le_antisymm h (Nat.le_of_not_lt ‹_›)

theorem located_afterFlush {d : DirectionalBuffer} (h : d.pos = d.cap) :
    d.Located d.afterFlush := by
  unfold afterFlush
  cases hread : d.readDone <;> exact ⟨h, hread⟩

theorem unwritten_length {d : DirectionalBuffer} (h : d.cap ≤ d.buf.length) :
    d.unwritten.length = d.cap - d.pos := by
  simp [unwritten, Nat.min_eq_left h]

theorem unwritten_eq_nil {d : DirectionalBuffer} (h : d.pos = d.cap) :
    d.unwritten = [] := by
  simp [unwritten, h]

theorem fill_length {d : DirectionalBuffer} {start : Nat} {bytes : List UInt8}
    (h : start + bytes.length ≤ d.buf.length) :
    (d.fill start bytes).length = d.buf.length := by
  simp only [fill, List.length_append, List.length_take, List.length_drop]
  omega

theorem take_fill {d : DirectionalBuffer} {start : Nat} {bytes : List UInt8}
    (h : start ≤ d.buf.length) :
    (d.fill start bytes).take (start + bytes.length) = d.buf.take start ++ bytes := by
  have hlen : (d.buf.take start ++ bytes).length = start + bytes.length := by
    simp [Nat.min_eq_left h]
  rw [fill, ← hlen, List.take_left]

theorem unwritten_probed {d : DirectionalBuffer} (hwf : d.WellFormed) (bytes : List UInt8) :
    { d with buf := d.fill d.cap bytes, cap := d.cap + bytes.length }.unwritten =
      d.unwritten ++ bytes := by
  simp only [unwritten, take_fill hwf.cap_le_length]
  rw [List.drop_append_of_le_length]
  simpa [Nat.min_eq_left hwf.cap_le_length] using hwf.pos_le_cap

theorem unwritten_read (d : DirectionalBuffer) (bytes : List UInt8) :
    { d with buf := d.fill 0 bytes, pos := 0, cap := bytes.length }.unwritten = bytes := by
  have h : (d.fill 0 bytes).take (0 + bytes.length) = d.buf.take 0 ++ bytes :=
    take_fill (Nat.zero_le _)
  simpa [unwritten] using h

/-- What a list of I/O calls did to the buffer, seen from outside.  A read into
an empty buffer cannot tell EOF from a full slice, hence the guard. -/
structure CopySpec (d : DirectionalBuffer) (calls : List IoCall)
    (d' : DirectionalBuffer) : Prop where
  wellFormed : d'.WellFormed
  transfer : Transfer d.unwritten (returnedBytes calls) (acceptedBytes calls) d'.unwritten
  amt : d'.amt = d.amt + (acceptedBytes calls).length
  readDone : 0 < d.buf.length → d'.readDone = (d.readDone || calls.any IoCall.isEof)
  flushOk : d'.flushOk = (d.flushOk || calls.any IoCall.isFlushed)
  length : d'.buf.length = d.buf.length

theorem CopySpec.trans {d d' d'' : DirectionalBuffer} {calls calls' : List IoCall}
    (h : CopySpec d calls d') (h' : CopySpec d' calls' d'') :
    CopySpec d (calls ++ calls') d'' where
  wellFormed := h'.wellFormed
  transfer := by simpa using h.transfer.trans h'.transfer
  amt := by rw [h'.amt, h.amt]; simp [Nat.add_assoc]
  readDone := by
    intro hlen
    rw [h'.readDone (by rw [h.length]; exact hlen), h.readDone hlen]
    simp [Bool.or_assoc]
  flushOk := by rw [h'.flushOk, h.flushOk]; simp [Bool.or_assoc]
  length := h'.length.trans h.length

theorem CopySpec.of_flags {d : DirectionalBuffer} {c : IoCall} (hwf : d.WellFormed)
    {readDone shutdownDone flushOk : Bool}
    (hdone : shutdownDone = true → readDone = true ∧ d.pos = d.cap)
    (hreturned : c.returned = []) (haccepted : c.accepted = [])
    (hread : 0 < d.buf.length → readDone = (d.readDone || c.isEof))
    (hflush : flushOk = (d.flushOk || c.isFlushed)) :
    CopySpec d [c] { d with readDone, shutdownDone, flushOk } where
  wellFormed := ⟨hwf.pos_le_cap, hwf.cap_le_length, hdone⟩
  transfer := by
    simp only [returnedBytes_cons, acceptedBytes_cons, hreturned, haccepted]
    exact Transfer.refl d.unwritten
  amt := by simp [haccepted]
  readDone := by simpa using hread
  flushOk := by simpa using hflush
  length := rfl

theorem CopySpec.of_unchanged {d : DirectionalBuffer} {c : IoCall} (hwf : d.WellFormed)
    (hreturned : c.returned = []) (haccepted : c.accepted = [])
    (heof : c.isEof = false) (hflush : c.isFlushed = false) : CopySpec d [c] d :=
  CopySpec.of_flags hwf hwf.done_drained hreturned haccepted (by simp [heof])
    (by simp [hflush])

theorem copySpec_wrote {d : DirectionalBuffer} (hwf : d.WellFormed)
    (hloc : d.pos < d.cap) {i : Nat} (hle : i ≤ d.unwritten.length) :
    CopySpec d [.pollWrite d.unwritten (.ready (.ok i))]
      { d with pos := d.pos + i, amt := d.amt + i } where
  wellFormed := by
    rw [unwritten_length hwf.cap_le_length] at hle
    refine ⟨?_, hwf.cap_le_length, ?_⟩
    · simp only
      omega
    · intro hdone
      have := (hwf.done_drained hdone).2
      omega
  transfer := by
    have h := Transfer.pop d.unwritten i
    simpa [IoCall.returned, IoCall.accepted, unwritten, List.drop_drop] using h
  amt := by simp [IoCall.accepted, Nat.min_eq_left hle]
  readDone := by simp [IoCall.isEof]
  flushOk := by simp [IoCall.isFlushed]
  length := rfl

theorem copySpec_probed {d : DirectionalBuffer} (hwf : d.WellFormed)
    (hread : d.readDone = false) {bytes : List UInt8} (hne : bytes ≠ [])
    (hle : bytes.length ≤ d.buf.length - d.cap) :
    CopySpec d [.pollRead (d.buf.length - d.cap) (.ready (.ok bytes))]
      { d with buf := d.fill d.cap bytes, cap := d.cap + bytes.length } where
  wellFormed := by
    have hlen : d.cap + bytes.length ≤ d.buf.length := by
      have := hwf.cap_le_length
      omega
    refine ⟨Nat.le_add_right_of_le hwf.pos_le_cap, ?_, ?_⟩
    · simpa [fill_length hlen] using hlen
    · intro hdone
      exact absurd (hwf.done_drained hdone).1 (by simp [hread])
  transfer := by
    rw [unwritten_probed hwf]
    simpa [IoCall.returned, IoCall.accepted] using Transfer.push d.unwritten bytes
  amt := by simp [IoCall.accepted]
  readDone := by
    obtain ⟨b, bytes', rfl⟩ := List.exists_cons_of_ne_nil hne
    simp [IoCall.isEof]
  flushOk := by simp [IoCall.isFlushed]
  length := fill_length (by have := hwf.cap_le_length; omega)

theorem copySpec_read {d : DirectionalBuffer} (hwf : d.WellFormed)
    (hloc : d.pos = d.cap ∧ d.readDone = false) {bytes : List UInt8} (hne : bytes ≠ [])
    (hle : bytes.length ≤ d.buf.length) :
    CopySpec d [.pollRead d.buf.length (.ready (.ok bytes))]
      { d with buf := d.fill 0 bytes, pos := 0, cap := bytes.length } where
  wellFormed := by
    have hlen : (d.fill 0 bytes).length = d.buf.length := fill_length (by simpa using hle)
    refine ⟨Nat.zero_le _, by simpa [hlen] using hle, ?_⟩
    intro hdone
    exact absurd (hwf.done_drained hdone).1 (by simp [hloc.2])
  transfer := by
    rw [unwritten_read, unwritten_eq_nil hloc.1]
    simpa [IoCall.returned, IoCall.accepted] using Transfer.push [] bytes
  amt := by simp [IoCall.accepted]
  readDone := by
    obtain ⟨b, bytes', rfl⟩ := List.exists_cons_of_ne_nil hne
    simp [IoCall.isEof]
  flushOk := by simp [IoCall.isFlushed]
  length := fill_length (by simpa using hle)

theorem CopyCase.spec {d : DirectionalBuffer} {point : CopyPoint} {c : IoCall}
    {out : CopyStep} (h : CopyCase d point c out) (hwf : d.WellFormed)
    (hloc : d.Located point) : CopySpec d [c] out.buffer := by
  cases h with
  | wroteZero => exact .of_unchanged hwf rfl (by simp [IoCall.accepted]) rfl rfl
  | wrote hpos hle => exact copySpec_wrote hwf hloc hle
  | writeFailed => exact .of_unchanged hwf rfl rfl rfl rfl
  | writeStalled hfull => exact .of_unchanged hwf rfl rfl rfl rfl
  | writeProbes hread hroom => exact .of_unchanged hwf rfl rfl rfl rfl
  | probedEof =>
      refine .of_flags hwf (fun hdone => ⟨rfl, (hwf.done_drained hdone).2⟩) rfl rfl ?_ ?_
      · intro _
        have := hloc.2
        simp only [IoCall.isEof]
        rw [decide_eq_true (by omega), Bool.or_true]
      · simp [IoCall.isFlushed]
  | probed hne hle => exact copySpec_probed hwf hloc.1 hne hle
  | probeFailed => exact .of_unchanged hwf rfl rfl rfl rfl
  | probePending => exact .of_unchanged hwf rfl rfl rfl rfl
  | flushed =>
      exact .of_flags hwf hwf.done_drained rfl rfl (by simp [IoCall.isEof])
        (by simp [IoCall.isFlushed])
  | flushFailed => exact .of_unchanged hwf rfl rfl rfl rfl
  | flushPending => exact .of_unchanged hwf rfl rfl rfl rfl
  | shutDown =>
      exact .of_flags hwf (fun _ => ⟨hloc.2, hloc.1⟩) rfl rfl (by simp [IoCall.isEof])
        (by simp [IoCall.isFlushed])
  | shutdownPending => exact .of_unchanged hwf rfl rfl rfl rfl
  | readEof =>
      refine .of_flags hwf (fun hdone => ⟨rfl, (hwf.done_drained hdone).2⟩) rfl rfl ?_ ?_
      · intro hlen
        simp only [IoCall.isEof]
        rw [decide_eq_true hlen, Bool.or_true]
      · simp [IoCall.isFlushed]
  | read hne hle => exact copySpec_read hwf hloc hne hle
  | readFailed => exact .of_unchanged hwf rfl rfl rfl rfl
  | readPending => exact .of_unchanged hwf rfl rfl rfl rfl

theorem CopyCase.located {d d' : DirectionalBuffer} {point point' : CopyPoint} {c : IoCall}
    (h : CopyCase d point c (.call d' point')) (hwf : d.WellFormed)
    (hloc : d.Located point) : d'.Located point' := by
  have hwf' := (h.spec hwf hloc).wellFormed
  cases h with
  | wrote hpos hle => exact located_loopHead hwf'.pos_le_cap
  | writeProbes hread hroom => exact ⟨hread, hroom⟩
  | flushed => exact located_afterFlush (d := { d with flushOk := true }) hloc
  | flushPending => exact located_afterFlush hloc
  | readEof => exact located_loopHead hwf'.pos_le_cap
  | read hne hle => exact located_loopHead hwf'.pos_le_cap

theorem CopyCase.isFailure_iff {d : DirectionalBuffer} {point : CopyPoint} {c : IoCall}
    {out : CopyStep} (h : CopyCase d point c out) :
    c.isFailure = true ↔ ∃ d' e, out = .done d' (.ready (.error e)) := by
  cases h with
  | wroteZero | writeFailed | probeFailed | flushFailed | readFailed =>
      exact ⟨fun _ => ⟨_, _, rfl⟩, fun _ => rfl⟩
  | @wrote i hpos hle =>
      obtain ⟨i, rfl⟩ := Nat.exists_eq_succ_of_ne_zero (Nat.pos_iff_ne_zero.mp hpos)
      simp [IoCall.isFailure, IoCall.isError]
  | _ => simp [IoCall.isFailure, IoCall.isError]

/-- A whole poll, one case of the loop for each call. -/
inductive CopyRun : DirectionalBuffer → CopyPoint → List IoCall → DirectionalBuffer →
    Poll (Except IoError Unit) → Prop
  | last {d d' : DirectionalBuffer} {point : CopyPoint} {c : IoCall}
      {result : Poll (Except IoError Unit)} (hcase : CopyCase d point c (.done d' result)) :
      CopyRun d point [c] d' result
  | more {d d₁ d' : DirectionalBuffer} {point point₁ : CopyPoint} {c : IoCall}
      {calls : List IoCall} {result : Poll (Except IoError Unit)}
      (hcase : CopyCase d point c (.call d₁ point₁)) (hrest : CopyRun d₁ point₁ calls d' result) :
      CopyRun d point (c :: calls) d' result

theorem copyRun_of_pollCopyFrom {d d' : DirectionalBuffer} {point : CopyPoint}
    {calls : List IoCall} {result : Poll (Except IoError Unit)}
    (h : d.pollCopyFrom point calls = some (d', result)) : CopyRun d point calls d' result := by
  induction calls generalizing d point with
  | nil => cases h
  | cons c calls ih =>
      simp only [pollCopyFrom] at h
      split at h
      · cases h
      · rename_i d₁ result₁ hstep
        split at h
        · rename_i hcalls
          subst hcalls
          cases h
          exact .last (step_cases hstep)
        · cases h
      · rename_i d₁ point₁ hstep
        exact .more (step_cases hstep) (ih h)

theorem pollCopyFrom_spec {d d' : DirectionalBuffer} {point : CopyPoint}
    {calls : List IoCall} {result : Poll (Except IoError Unit)}
    (h : d.pollCopyFrom point calls = some (d', result)) (hwf : d.WellFormed)
    (hloc : d.Located point) :
    CopySpec d calls d' ∧
      (calls.any IoCall.isFailure = true ↔ ∃ e, result = .ready (.error e)) := by
  have hrun := copyRun_of_pollCopyFrom h
  clear h
  induction hrun with
  | last hcase =>
      refine ⟨hcase.spec hwf hloc, ?_⟩
      rw [List.any_cons, List.any_nil, Bool.or_false, hcase.isFailure_iff]
      constructor
      · rintro ⟨d₂, e, hout⟩
        cases hout
        exact ⟨e, rfl⟩
      · rintro ⟨e, rfl⟩
        exact ⟨_, e, rfl⟩
  | @more _ _ _ _ _ c _ _ hcase _ ih =>
      have hspec := hcase.spec hwf hloc
      obtain ⟨hrest, hfails⟩ := ih hspec.wellFormed (hcase.located hwf hloc)
      refine ⟨hspec.trans hrest, ?_⟩
      have hc : c.isFailure = false := by
        by_contra hc
        obtain ⟨d₂, e, hout⟩ := hcase.isFailure_iff.mp (by simpa using hc)
        cases hout
      rw [List.any_cons, hc, Bool.false_or]
      exact hfails

theorem pollCopy_spec {d d' : DirectionalBuffer} {calls : List IoCall}
    {result : Poll (Except IoError Unit)} (h : d.pollCopy calls = some (d', result))
    (hwf : d.WellFormed) (hdone : d.isDone = false) :
    CopySpec { d with flushOk := false } calls d' ∧
      (calls.any IoCall.isFailure = true ↔ ∃ e, result = .ready (.error e)) := by
  have hdone' : d.shutdownDone = false := hdone
  simp only [pollCopy, hdone', Bool.false_eq_true, if_false] at h
  have hwf' : { d with flushOk := false }.WellFormed :=
    ⟨hwf.pos_le_cap, hwf.cap_le_length, hwf.done_drained⟩
  have hloc := located_loopHead hwf'.pos_le_cap
  rw [hdone'] at hwf' hloc ⊢
  exact pollCopyFrom_spec h hwf' hloc

end DirectionalBuffer

end TrojanServer.PollCopy
