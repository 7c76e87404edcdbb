import TrojanServer.WebSocket

namespace TrojanServer.WebSocket

open TrojanServer.AsyncIo
open TrojanServer.StepMachine

section Stream

def payload : NextResult → List UInt8
  | .ready (some (.ok (.binary data))) => data
  | _ => []

/-- What the reader is told when this event ends the stream. -/
def terminal : NextResult → Option (Except IoError (List UInt8))
  | .ready none => some (.ok [])
  | .ready (some (.ok .close)) => some (.ok [])
  | .ready (some (.error .connectionClosed)) => some (.ok [])
  | .ready (some (.error .alreadyClosed)) => some (.ok [])
  | .ready (some (.error (.other text))) =>
      some (.error ⟨.connectionReset, "WebSocket read error: " ++ text⟩)
  | _ => none

/-- The events in front of the one that ends the stream. -/
def beforeEnd (incoming : List NextResult) : List NextResult :=
  incoming.takeWhile fun event => (terminal event).isNone

def payloads (incoming : List NextResult) : List UInt8 := (beforeEnd incoming).flatMap payload

def ending (incoming : List NextResult) : Option (Except IoError (List UInt8)) :=
  incoming.findSome? terminal

variable {event : NextResult} (incoming : List NextResult)

theorem beforeEnd_cons (h : terminal event = none) :
    beforeEnd (event :: incoming) = event :: beforeEnd incoming := by
  simp [beforeEnd, h]

theorem payloads_cons (h : terminal event = none) :
    payloads (event :: incoming) = payload event ++ payloads incoming := by
  simp [payloads, beforeEnd_cons _ h]

theorem ending_cons (h : terminal event = none) : ending (event :: incoming) = ending incoming := by
  simp [ending, h]

theorem payloads_of_terminal {result : Except IoError (List UInt8)}
    (h : terminal event = some result) : payloads (event :: incoming) = [] := by
  simp [payloads, beforeEnd, h]

theorem ending_of_terminal {result : Except IoError (List UInt8)}
    (h : terminal event = some result) : ending (event :: incoming) = some result := by
  simp [ending, h]

end Stream

section Step

def WebSocketTransport.undelivered (t : WebSocketTransport) : List UInt8 :=
  t.readBuffer.drop t.readPos

/-- The bytes to be read before the end, given those held back already. -/
def ahead (held : List UInt8) (incoming : List NextResult) : List UInt8 := held ++ payloads incoming

/-- More reads than this see the end of the stream. -/
def weight (held : List UInt8) (incoming : List NextResult) : Nat :=
  (ahead held incoming).length + (beforeEnd incoming).length

/-- What a read with room in its buffer does to an open transport. -/
inductive ReadCase (held : List UInt8) (incoming : List NextResult) :
    ReadResult × WebSocketTransport → Prop
  | pending {t' : WebSocketTransport} (hopen : t'.readClosed = false)
      (hahead : ahead t'.undelivered t'.wsStream = ahead held incoming)
      (hending : ending t'.wsStream = ending incoming)
      (hweight : ending incoming ≠ none →
        weight t'.undelivered t'.wsStream < weight held incoming) :
      ReadCase held incoming (.pending, t')
  | bytes {t' : WebSocketTransport} {bytes : List UInt8} (hne : bytes ≠ [])
      (hopen : t'.readClosed = false)
      (hahead : bytes ++ ahead t'.undelivered t'.wsStream = ahead held incoming)
      (hending : ending t'.wsStream = ending incoming)
      (hweight : weight t'.undelivered t'.wsStream < weight held incoming) :
      ReadCase held incoming (.ready (.ok bytes), t')
  | ended {t' : WebSocketTransport} {result : Except IoError (List UInt8)}
      (hclosed : t'.readClosed = true) (hnone : t'.undelivered = [])
      (hahead : ahead held incoming = []) (hending : ending incoming = some result) :
      ReadCase held incoming (.ready result, t')

section Next

variable {held : List UInt8} {event : NextResult} {rest : List NextResult}
  {t : WebSocketTransport} {room : Nat}

theorem ahead_cons (h : terminal event = none) :
    ahead held (event :: rest) = held ++ (payload event ++ payloads rest) := by
  rw [ahead, payloads_cons rest h]

theorem weight_cons (h : terminal event = none) :
    weight held (event :: rest) = weight held rest + (payload event).length + 1 := by
  rw [weight, ahead_cons h, beforeEnd_cons rest h, weight, ahead]
  simp only [List.length_append, List.length_cons]
  omega

theorem ReadCase.skip {step : ReadResult × WebSocketTransport} (hterminal : terminal event = none)
    (hpayload : payload event = []) (h : ReadCase held rest step) :
    ReadCase held (event :: rest) step := by
  have hahead : ahead held rest = ahead held (event :: rest) := by
    rw [ahead_cons hterminal, hpayload, ahead, List.nil_append]
  have hweight : weight held rest < weight held (event :: rest) := by
    rw [weight_cons hterminal]
    omega
  have hending := ending_cons rest hterminal
  cases h with
  | pending hopen hahead' hending' hless =>
      refine .pending hopen (hahead'.trans hahead) (hending'.trans hending.symm) ?_
      intro hsome
      exact Nat.lt_trans (hless (hending ▸ hsome)) hweight
  | bytes hne hopen hahead' hending' hless =>
      exact .bytes hne hopen (hahead'.trans hahead) (hending'.trans hending.symm)
        (Nat.lt_trans hless hweight)
  | ended hclosed hnone hahead' hending' =>
      exact .ended hclosed hnone (hahead ▸ hahead') (hending.trans hending')

theorem readCase_terminal {result : Except IoError (List UInt8)} (hnone : t.undelivered = [])
    (hterminal : terminal event = some result) :
    ReadCase t.undelivered (event :: rest)
      (.ready result, { t with wsStream := rest, readClosed := true }) := by
  refine .ended rfl hnone ?_ (ending_of_terminal rest hterminal)
  rw [ahead, hnone, payloads_of_terminal rest hterminal, List.nil_append]

variable (rest) in
/-- Part of what lies ahead is put into the reader's buffer, and the rest is kept. -/
theorem readCase_taken {incoming : List NextResult} {data : List UInt8} {k : Nat}
    {t' : WebSocketTransport} (hahead : ahead held incoming = data ++ payloads rest)
    (hending : ending rest = ending incoming)
    (hbefore : (beforeEnd rest).length ≤ (beforeEnd incoming).length) (hk : 0 < k)
    (hle : k ≤ data.length) (hopen : t'.readClosed = false) (hstream : t'.wsStream = rest)
    (hheld : t'.undelivered = data.drop k) :
    ReadCase held incoming (.ready (.ok (data.take k)), t') := by
  refine .bytes ?_ hopen ?_ ?_ ?_
  · rw [ne_eq, ← List.length_eq_zero_iff, List.length_take]
    omega
  · rw [ahead, hheld, hstream, hahead, ← List.append_assoc, List.take_append_drop]
  · rw [hstream, hending]
  · rw [weight, weight, hahead, ahead, hheld, hstream]
    simp only [List.length_append, List.length_drop]
    omega

theorem readCase_binary {data : List UInt8} (hopen : t.readClosed = false)
    (hnone : t.undelivered = []) (hdata : data ≠ []) (hroom : 0 < room) :
    ReadCase t.undelivered (.ready (some (.ok (.binary data))) :: rest)
      (t.pollNext room (.ready (some (.ok (.binary data))) :: rest)) := by
  have hlength := List.length_pos_iff.mpr hdata
  have hterminal : terminal (.ready (some (.ok (.binary data)))) = none := rfl
  simp only [WebSocketTransport.pollNext, List.isEmpty_iff, if_neg hdata]
  refine readCase_taken rest ?_ (ending_cons rest hterminal).symm ?_ (by omega) (by omega)
    ?_ ?_ ?_
  · rw [ahead_cons hterminal, hnone]
    rfl
  · rw [beforeEnd_cons rest hterminal, List.length_cons]
    omega
  · split <;> exact hopen
  · split <;> rfl
  · split
    · rfl
    · rename_i hall
      rw [List.drop_of_length_le (Nat.le_of_not_lt hall)]
      exact hnone

theorem readCase_pollNext (hopen : t.readClosed = false) (hnone : t.undelivered = [])
    (hroom : 0 < room) (incoming : List NextResult) :
    ReadCase t.undelivered incoming (t.pollNext room incoming) := by
  induction incoming with
  | nil =>
      refine .pending hopen rfl rfl ?_
      intro hsome
      exact absurd rfl hsome
  | cons event rest ih =>
      match event with
      | .pending =>
          have hahead : ahead t.undelivered rest = ahead t.undelivered (.pending :: rest) := by
            rw [ahead_cons rfl]
            rfl
          have hweight : weight t.undelivered rest < weight t.undelivered (.pending :: rest) := by
            rw [weight_cons rfl]
            omega
          exact .pending hopen hahead (ending_cons rest rfl).symm fun _ => hweight
      | .ready none => exact readCase_terminal hnone rfl
      | .ready (some (.error .connectionClosed)) => exact readCase_terminal hnone rfl
      | .ready (some (.error .alreadyClosed)) => exact readCase_terminal hnone rfl
      | .ready (some (.error (.other text))) => exact readCase_terminal hnone rfl
      | .ready (some (.ok .close)) => exact readCase_terminal hnone rfl
      | .ready (some (.ok (.binary data))) =>
          by_cases hdata : data = []
          · subst hdata
            exact ih.skip rfl rfl
          · exact readCase_binary hopen hnone hdata hroom
      | .ready (some (.ok .text)) => exact ih.skip rfl rfl
      | .ready (some (.ok .ping)) => exact ih.skip rfl rfl
      | .ready (some (.ok .pong)) => exact ih.skip rfl rfl
      | .ready (some (.ok .frame)) => exact ih.skip rfl rfl

end Next

theorem readCase_pollRead {t : WebSocketTransport} {room : Nat} (hopen : t.readClosed = false)
    (hroom : 0 < room) : ReadCase t.undelivered t.wsStream (t.pollRead room) := by
  simp only [WebSocketTransport.pollRead, hopen, Bool.false_eq_true, if_false]
  split
  · rename_i hpos
    have hlength : 0 < (t.readBuffer.drop t.readPos).length := by
      rw [List.length_drop]
      omega
    refine readCase_taken t.wsStream rfl rfl (Nat.le_refl _) (by omega) (by omega) ?_ ?_ ?_
    · split <;> rfl
    · split <;> rfl
    · rw [List.drop_drop]
      split
      · rename_i hall
        exact (List.drop_of_length_le hall).symm
      · rfl
  · rename_i hpos
    exact readCase_pollNext hopen (List.drop_of_length_le (Nat.le_of_not_lt hpos)) hroom t.wsStream

end Step

section Run

/-- A call that is not the end of the stream, and returns bytes if it returns. -/
def Progress (result : ReadResult) : Prop :=
  result = .pending ∨ ∃ bytes, bytes ≠ [] ∧ result = .ready (.ok bytes)

structure OpenInv (early : List UInt8) (incoming : List NextResult) (trace : Trace)
    (t : WebSocketTransport) : Prop where
  opened : t.readClosed = false
  progress : ∀ call ∈ trace, Progress call.2
  bytes : delivered trace ++ ahead t.undelivered t.wsStream = ahead early incoming
  ending : ending t.wsStream = ending incoming
  weight : WebSocket.ending incoming ≠ none →
    trace.length + weight t.undelivered t.wsStream ≤ weight early incoming

structure EndedInv (early : List UInt8) (incoming : List NextResult) (trace : Trace)
    (t : WebSocketTransport) : Prop where
  closed : t.readClosed = true
  none : t.undelivered = []
  calls : ∃ reads room result later, trace = reads ++ (room, .ready result) :: later ∧
    (∀ call ∈ reads, Progress call.2) ∧ delivered reads = early ++ payloads incoming ∧
    ending incoming = some result ∧ ∀ call ∈ later, call.2 = .ready (.ok [])

variable {early : List UInt8} {incoming : List NextResult} {trace : Trace}
  {t : WebSocketTransport} {room : Nat}

@[simp] theorem delivered_snoc (trace : Trace) (room : Nat) (result : ReadResult) :
    delivered (trace ++ [(room, result)]) = delivered trace ++ returnedBytes result := by
  simp [delivered]

theorem progress_snoc {result : ReadResult} (h : ∀ call ∈ trace, Progress call.2)
    (hresult : Progress result) : ∀ call ∈ trace ++ [(room, result)], Progress call.2 := by
  intro call hcall
  rcases List.mem_append.mp hcall with hcall | hcall
  · exact h call hcall
  · rw [List.mem_singleton.mp hcall]
    exact hresult

theorem OpenInv.step (h : OpenInv early incoming trace t) (hroom : 0 < room) :
    OpenInv early incoming (trace ++ [(room, (t.pollRead room).1)]) (t.pollRead room).2 ∨
      EndedInv early incoming (trace ++ [(room, (t.pollRead room).1)]) (t.pollRead room).2 := by
  obtain ⟨hopen, hprogress, hbytes, hending, hweight⟩ := h
  have hcase := readCase_pollRead hopen hroom
  generalize t.pollRead room = step at hcase
  cases hcase with
  | pending hopen' hahead hending' hless =>
      refine .inl ⟨hopen', progress_snoc hprogress (.inl rfl), ?_, hending'.trans hending, ?_⟩
      · simpa [returnedBytes, hahead] using hbytes
      · intro hsome
        have hbound := hweight hsome
        have hdecrease := hless (hending ▸ hsome)
        simp only [List.length_append, List.length_cons, List.length_nil]
        omega
  | @bytes t' bytes hne hopen' hahead hending' hless =>
      refine .inl ⟨hopen', progress_snoc hprogress (.inr ⟨bytes, hne, rfl⟩), ?_,
        hending'.trans hending, ?_⟩
      · simpa [returnedBytes, hahead] using hbytes
      · intro hsome
        have hbound := hweight hsome
        simp only [List.length_append, List.length_cons, List.length_nil]
        omega
  | @ended t' result hclosed hnone hahead hending' =>
      rw [hahead, List.append_nil] at hbytes
      exact .inr ⟨hclosed, hnone, trace, room, result, [], rfl, hprogress, hbytes,
        hending ▸ hending', by simp⟩

theorem EndedInv.step (h : EndedInv early incoming trace t) (room : Nat) :
    EndedInv early incoming (trace ++ [(room, (t.pollRead room).1)]) (t.pollRead room).2 := by
  obtain ⟨hclosed, hnone, reads, last, result, later, rfl, hreads, hbytes, hending, hlater⟩ := h
  have heof : t.pollRead room = (.ready (.ok []), t) := by
    simp [WebSocketTransport.pollRead, hclosed]
  rw [heof]
  refine ⟨hclosed, hnone, reads, last, result, later ++ [(room, .ready (.ok []))], by simp, hreads,
    hbytes, hending, ?_⟩
  intro call hcall
  rcases List.mem_append.mp hcall with hcall | hcall
  · exact hlater call hcall
  · rw [List.mem_singleton.mp hcall]

theorem readInv_run {rooms : List Nat} (hrooms : ∀ room ∈ rooms, 0 < room)
    (hrun : run readStep (withEarlyData incoming early) rooms = some (t, trace)) :
    OpenInv early incoming trace t ∨ EndedInv early incoming trace t := by
  refine run_induction_along (C := fun _ room => 0 < room)
    (P := fun trace t => OpenInv early incoming trace t ∨ EndedInv early incoming trace t) hrun
    (along_of_mem (fun room hroom _ => hrooms room hroom) _) ?_ ?_
  · exact .inl ⟨rfl, by simp, rfl, rfl, fun _ => Nat.le_of_eq (Nat.zero_add _)⟩
  · intro trace t room t' result h hroom hstep
    cases hstep
    rcases h with hopen | hended
    · exact hopen.step hroom
    · exact .inr (hended.step room)

end Run

/-- Up to the event that ends the stream the reads return the early data and the binary
messages, and no read returns nothing; if there are enough reads the end is reached. -/
theorem reads_early_data_and_messages {early : List UInt8} {incoming : List NextResult}
    {rooms : List Nat} (hrooms : ∀ room ∈ rooms, 0 < room) {t : WebSocketTransport} {trace : Trace}
    (hrun : run readStep (withEarlyData incoming early) rooms = some (t, trace)) :
    (t.readClosed = true → t.undelivered = []) ∧
      ∃ reads after, trace = reads ++ after ∧ (∀ call ∈ reads, Progress call.2) ∧
        delivered reads <+: early ++ payloads incoming ∧
        (after = [] ∨ delivered reads = early ++ payloads incoming ∧
          ∃ room result later, after = (room, .ready result) :: later ∧
            ending incoming = some result ∧ ∀ call ∈ later, call.2 = .ready (.ok [])) ∧
        (ending incoming ≠ none → weight early incoming < rooms.length → after ≠ []) := by
  have hlength : trace.length = rooms.length := by
    rw [← map_fst_of_run hrun, List.length_map]
  rcases readInv_run hrooms hrun with hopen | hended
  · refine ⟨fun hclosed => absurd (hopen.opened.symm.trans hclosed) (by decide), trace, [],
      by simp, hopen.progress, ⟨_, hopen.bytes⟩, .inl rfl, ?_⟩
    intro hsome hmany
    have hbound := hopen.weight hsome
    omega
  · obtain ⟨hclosed, hnone, reads, room, result, later, rfl, hreads, hbytes, hending, hlater⟩ :=
      hended
    refine ⟨fun _ => hnone, reads, (room, .ready result) :: later, rfl, hreads,
      hbytes ▸ List.prefix_rfl, .inr ⟨hbytes, room, result, later, rfl, hending, hlater⟩, ?_⟩
    intro _ _
    exact List.cons_ne_nil _ _

/-- A message of two bytes between skipped ones, read byte by byte up to the close. -/
def sampleIncoming : List NextResult :=
  [.ready (some (.ok .ping)), .ready (some (.ok (.binary []))),
    .ready (some (.ok (.binary [2, 3]))), .pending, .ready (some (.ok .text)),
    .ready (some (.ok .close))]

theorem reads_early_data_and_messages_sample :
    ∃ t trace, run readStep (withEarlyData sampleIncoming [1]) (List.replicate 9 1) =
        some (t, trace) ∧
      t.undelivered = [] ∧ ending sampleIncoming = some (.ok []) ∧
      ∃ reads after, trace = reads ++ after ∧ (∀ call ∈ reads, Progress call.2) ∧
        delivered reads = [1, 2, 3] ∧ after ≠ [] := by
  obtain ⟨t, trace, hrun, hclosed⟩ : ∃ t trace,
      run readStep (withEarlyData sampleIncoming [1]) (List.replicate 9 1) = some (t, trace) ∧
        t.readClosed = true :=
    ⟨_, _, rfl, rfl⟩
  obtain ⟨hnone, reads, after, hsplit, hreads, -, hafter, hend⟩ :=
    reads_early_data_and_messages (by simp) hrun
  have hne : after ≠ [] := hend (by decide) (by decide)
  refine ⟨t, trace, hrun, hnone hclosed, rfl, reads, after, hsplit, hreads, ?_, hne⟩
  rcases hafter with hempty | ⟨hbytes, -⟩
  · exact absurd hempty hne
  · exact hbytes

end TrojanServer.WebSocket
