import TrojanServer.RequestStability

namespace TrojanServer.RequestReader

open TrojanServer.AsyncIo
open TrojanServer.FrameDecoding
open TrojanServer.Protocol
open TrojanServer.Protocol.TrojanRequest
open TrojanServer.StepMachine

/-- A stream cut into reads. -/
structure Pieces (bufferSize : Nat) (stream : List UInt8) (pieces : List (List UInt8)) : Prop where
  flatten : pieces.flatten = stream
  nonempty : ∀ piece ∈ pieces, piece ≠ []
  size : ∀ piece ∈ pieces, piece.length ≤ bufferSize

/-- The function returns this on a client that sends these pieces, one for each read,
and then closes the stream. -/
def Returns (bufferSize : Nat) (pieces : List (List UInt8)) (outcome : Outcome) : Prop :=
  ∃ reads r trace, reads <+: pieces.map .ok ++ [.ok []] ∧
    readTrojanRequest bufferSize reads = some (r, trace) ∧ r.outcome = some outcome

def endMessage (buf : List UInt8) : String :=
  if buf.isEmpty then "Connection closed before receiving request"
  else "Connection closed with incomplete request"

section Reads

variable {bufferSize : Nat} {r : Reader}

/-- The reads up to the one after which the function has returned. -/
def Reader.readPieces (bufferSize : Nat) : Reader → List (List UInt8) → Reader
  | r, [] =>
      match r.step bufferSize (.ok []) with
      | some (r', _) => r'
      | none => r
  | r, piece :: pieces =>
      match r.step bufferSize (.ok piece) with
      | some (r', _) => readPieces bufferSize r' pieces
      | none => r

theorem step_of_returned {outcome : Outcome} (h : r.outcome = some outcome)
    (read : Except IoError (List UInt8)) : r.step bufferSize read = none := by
  simp [Reader.step, h]

theorem step_end (h : r.outcome = none) :
    r.step bufferSize (.ok []) =
      some ({ r with outcome := some (.failed (endMessage r.buf)) }, ()) := by
  simp only [Reader.step, h, endMessage]
  split <;> rfl

variable (bufferSize) in
theorem step_piece {piece : List UInt8} (h : r.outcome = none) (hpiece : piece ≠ []) :
    r.step bufferSize (.ok piece) =
      some (if bufferSize * 2 < (r.buf ++ piece).length then
        ⟨r.buf ++ piece, some (.failed "Request too large")⟩
      else Reader.probe (r.buf ++ piece), ()) := by
  obtain ⟨byte, piece, rfl⟩ := List.exists_cons_of_ne_nil hpiece
  simp only [Reader.step, h]
  split <;> rfl

variable (bufferSize) in
theorem step_isSome (h : r.outcome = none) (read : Except IoError (List UInt8)) :
    ∃ r', r.step bufferSize read = some (r', ()) := by
  rcases read with e | bytes
  · exact ⟨_, by simp only [Reader.step, h]; rfl⟩
  · by_cases hbytes : bytes = []
    · exact ⟨_, hbytes ▸ step_end h⟩
    · exact ⟨_, step_piece bufferSize h hbytes⟩

theorem readPieces_of_returned {outcome : Outcome} (h : r.outcome = some outcome)
    (pieces : List (List UInt8)) : r.readPieces bufferSize pieces = r := by
  cases pieces with
  | nil => simp [Reader.readPieces, step_of_returned h]
  | cons piece pieces => simp [Reader.readPieces, step_of_returned h]

theorem readPieces_nil (h : r.outcome = none) :
    r.readPieces bufferSize [] = { r with outcome := some (.failed (endMessage r.buf)) } := by
  simp only [Reader.readPieces, step_end h]

theorem readPieces_cons {r' : Reader} {piece : List UInt8}
    (h : r.step bufferSize (.ok piece) = some (r', ())) (pieces : List (List UInt8)) :
    r.readPieces bufferSize (piece :: pieces) = r'.readPieces bufferSize pieces := by
  simp only [Reader.readPieces, h]

theorem outcome_readPieces {reads : List (Except IoError (List UInt8))} {r' : Reader}
    {trace : List (Except IoError (List UInt8) × Unit)} {pieces : List (List UInt8)}
    {outcome : Outcome} (hreads : reads <+: pieces.map .ok ++ [.ok []])
    (hrun : run (Reader.step bufferSize) r reads = some (r', trace))
    (h : r'.outcome = some outcome) : (r.readPieces bufferSize pieces).outcome = some outcome := by
  induction pieces generalizing r reads trace with
  | nil =>
      cases reads with
      | nil =>
          cases hrun
          rw [readPieces_of_returned h, h]
      | cons read reads =>
          obtain ⟨r₁, o, rest, hstep, hrest, -⟩ := of_run_cons hrun
          obtain ⟨rfl, hnil⟩ := List.cons_prefix_cons.mp hreads
          obtain rfl := List.prefix_nil.mp hnil
          cases hrest
          simp only [Reader.readPieces, hstep, h]
  | cons piece pieces ih =>
      cases reads with
      | nil =>
          cases hrun
          rw [readPieces_of_returned h, h]
      | cons read reads =>
          obtain ⟨r₁, o, rest, hstep, hrest, -⟩ := of_run_cons hrun
          obtain ⟨rfl, htail⟩ := List.cons_prefix_cons.mp hreads
          rw [readPieces_cons hstep]
          exact ih htail hrest

variable (bufferSize) in
theorem exists_run_readPieces (r : Reader) (pieces : List (List UInt8)) :
    ∃ reads trace outcome, reads <+: pieces.map .ok ++ [.ok []] ∧
      run (Reader.step bufferSize) r reads = some (r.readPieces bufferSize pieces, trace) ∧
      (r.readPieces bufferSize pieces).outcome = some outcome := by
  induction pieces generalizing r with
  | nil =>
      cases h : r.outcome with
      | none =>
          rw [readPieces_nil h]
          exact ⟨[.ok []], [(.ok [], ())], _, by simp, by simp [run, step_end h], rfl⟩
      | some outcome =>
          rw [readPieces_of_returned h]
          exact ⟨[], [], outcome, List.nil_prefix, rfl, h⟩
  | cons piece pieces ih =>
      cases h : r.outcome with
      | none =>
          obtain ⟨r', hstep⟩ := step_isSome bufferSize h (.ok piece)
          obtain ⟨reads, trace, outcome, hreads, hrun, houtcome⟩ := ih r'
          rw [readPieces_cons hstep]
          refine ⟨.ok piece :: reads, _, outcome, ?_, run_cons hstep hrun, houtcome⟩
          exact List.cons_prefix_cons.mpr ⟨rfl, hreads⟩
      | some outcome =>
          rw [readPieces_of_returned h]
          exact ⟨[], [], outcome, List.nil_prefix, rfl, h⟩

theorem returns_iff {pieces : List (List UInt8)} {outcome : Outcome} :
    Returns bufferSize pieces outcome ↔
      (Reader.start.readPieces bufferSize pieces).outcome = some outcome := by
  constructor
  · rintro ⟨reads, r, trace, hreads, hrun, h⟩
    exact outcome_readPieces hreads hrun h
  · intro h
    obtain ⟨reads, trace, -, hreads, hrun, -⟩ :=
      exists_run_readPieces bufferSize Reader.start pieces
    exact ⟨reads, _, trace, hreads, hrun, h⟩

end Reads

section Probe

variable {buf : List UInt8}

theorem probe_of_waiting (h : checkComplete buf = .error none) :
    Reader.probe buf = ⟨buf, none⟩ := by
  simp [Reader.probe, h]

theorem probe_of_invalid {message : String} (h : checkComplete buf = .error (some message)) :
    (Reader.probe buf).outcome = some (.failed ("Invalid request: " ++ message)) := by
  have hmin : minSize ≤ buf.length := by
    apply Nat.le_of_not_lt
    intro hlt
    rw [checkComplete, dif_pos hlt] at h
    cases h
  simp [Reader.probe, h, hmin]

/-- The request holds what the buffer has after its header. -/
theorem probe_of_ok {n : Nat} (h : checkComplete buf = .ok n) :
    ∃ request, (Reader.probe buf).outcome = some (.request request) ∧
      buf.take n = header request.password request.cmd.byte request.addr ∧
      request.addr.Encodable ∧ request.payload = buf.drop n := by
  obtain ⟨hmin, -⟩ := checkComplete_eq_ok_iff.mp h
  have hcase := request_cases buf
  rw [h] at hcase
  generalize hdecode : decodeZerocopy buf = decoded at hcase
  cases hcase with
  | @complete request n hn hheader hpayload =>
      exact ⟨request, by simp [Reader.probe, hmin, h, hdecode], hheader,
        encodable_of_decodeZerocopy hdecode, hpayload⟩

end Probe

section Cuts

variable {bufferSize : Nat}

/-- The verdict on a stream, from the stream alone. -/
inductive Verdict (stream : List UInt8) : Option Outcome → Prop
  | accepted {request : TrojanRequest} {n : Nat} (hcheck : checkComplete stream = .ok n)
      (hheader : stream.take n = header request.password request.cmd.byte request.addr)
      (haddr : request.addr.Encodable) (hpayload : request.payload <+: stream.drop n) :
      Verdict stream (some (.request request))
  | invalid {message : String} (hcheck : checkComplete stream = .error (some message)) :
      Verdict stream (some (.failed ("Invalid request: " ++ message)))
  | ended (hcheck : checkComplete stream = .error none) :
      Verdict stream (some (.failed (endMessage stream)))

/-- What is read on top of an undecided buffer stays within the limit. -/
theorem length_le_limit {buf piece : List UInt8} (hsize : 320 ≤ bufferSize)
    (hbuf : checkComplete buf = .error none) (hpiece : piece.length ≤ bufferSize) :
    ¬ bufferSize * 2 < (buf ++ piece).length := by
  have hlen := length_lt_of_waiting hbuf
  rw [List.length_append]
  omega

theorem verdict_readPieces {pieces : List (List UInt8)} (hsize : 320 ≤ bufferSize)
    (hnonempty : ∀ piece ∈ pieces, piece ≠ [])
    (hpieces : ∀ piece ∈ pieces, piece.length ≤ bufferSize) {buf : List UInt8}
    (hbuf : checkComplete buf = .error none) :
    Verdict (buf ++ pieces.flatten) (Reader.readPieces bufferSize ⟨buf, none⟩ pieces).outcome := by
  induction pieces generalizing buf with
  | nil =>
      rw [readPieces_nil rfl, List.flatten_nil, List.append_nil]
      exact .ended hbuf
  | cons piece pieces ih =>
      have hlimit := length_le_limit hsize hbuf (hpieces piece List.mem_cons_self)
      have hne := hnonempty piece List.mem_cons_self
      have hstep := step_piece (r := ⟨buf, none⟩) bufferSize rfl hne
      rw [if_neg hlimit] at hstep
      rw [readPieces_cons hstep, List.flatten_cons, ← List.append_assoc]
      have hrest := fun p hp => hnonempty p (List.mem_cons_of_mem piece hp)
      rcases hcheck : checkComplete (buf ++ piece) with (_ | message) | n
      · rw [probe_of_waiting hcheck]
        exact ih hrest (fun p hp => hpieces p (List.mem_cons_of_mem piece hp)) hcheck
      · have hprobe := probe_of_invalid hcheck
        rw [readPieces_of_returned hprobe, hprobe]
        exact .invalid (checkComplete_append_of_invalid hcheck _)
      · obtain ⟨request, hprobe, hheader, haddr, hpayload⟩ := probe_of_ok hcheck
        obtain ⟨-, hn, -⟩ := checkComplete_eq_ok_iff.mp hcheck
        rw [readPieces_of_returned hprobe, hprobe]
        refine .accepted (checkComplete_append_of_ok hcheck _) ?_ haddr ?_
        · rw [List.take_append_of_le_length hn, hheader]
        · rw [hpayload, List.drop_append_of_le_length hn]
          exact List.prefix_append _ _

/-- Both accept, with the same fields and the payload as far as it had arrived; or both
reject for the same reason; or both have seen the stream end. -/
inductive SameVerdict (stream : List UInt8) : Outcome → Outcome → Prop
  | accepted {request request' : TrojanRequest} {n : Nat}
      (hheader : stream.take n = header request.password request.cmd.byte request.addr)
      (hpassword : request.password = request'.password) (hcmd : request.cmd = request'.cmd)
      (haddr : request.addr = request'.addr) (hpayload : request.payload <+: stream.drop n)
      (hpayload' : request'.payload <+: stream.drop n) :
      SameVerdict stream (.request request) (.request request')
  | invalid (message : String) :
      SameVerdict stream (.failed ("Invalid request: " ++ message))
        (.failed ("Invalid request: " ++ message))
  | ended : SameVerdict stream (.failed (endMessage stream)) (.failed (endMessage stream))

theorem sameVerdict_of_verdict {stream : List UInt8} {outcome outcome' : Outcome}
    (h : Verdict stream (some outcome)) (h' : Verdict stream (some outcome')) :
    SameVerdict stream outcome outcome' := by
  cases h with
  | accepted hcheck hheader haddr hpayload =>
      cases h' with
      | accepted hcheck' hheader' haddr' hpayload' =>
          obtain rfl := Except.ok.inj (hcheck.symm.trans hcheck')
          obtain ⟨hpassword, hcmd, haddr⟩ := header_injective haddr haddr'
            (hheader.symm.trans hheader')
          exact .accepted hheader hpassword (TrojanCmd.byte_injective hcmd) haddr hpayload hpayload'
      | invalid hcheck' => cases hcheck.symm.trans hcheck'
      | ended hcheck' => cases hcheck.symm.trans hcheck'
  | invalid hcheck =>
      cases h' with
      | accepted hcheck' _ _ _ => cases hcheck.symm.trans hcheck'
      | invalid hcheck' =>
          cases hcheck.symm.trans hcheck'
          exact .invalid _
      | ended hcheck' => cases hcheck.symm.trans hcheck'
  | ended hcheck =>
      cases h' with
      | accepted hcheck' _ _ _ => cases hcheck.symm.trans hcheck'
      | invalid hcheck' => cases hcheck.symm.trans hcheck'
      | ended hcheck' => exact .ended

theorem Verdict.ne_tooLarge {stream : List UInt8} {outcome : Outcome}
    (h : Verdict stream (some outcome)) : outcome ≠ .failed "Request too large" := by
  cases h with
  | accepted _ _ _ _ => simp
  | invalid _ =>
      intro heq
      have hchars := congrArg String.toList (Outcome.failed.inj heq)
      simp at hchars
  | ended _ =>
      unfold endMessage
      split <;> decide

theorem start_eq : Reader.start = ⟨[], none⟩ := rfl

theorem Pieces.verdict {stream : List UInt8} {pieces : List (List UInt8)} {outcome : Outcome}
    (h : Pieces bufferSize stream pieces) (hsize : 320 ≤ bufferSize)
    (hreturns : Returns bufferSize pieces outcome) : Verdict stream (some outcome) := by
  have hempty : checkComplete [] = .error none := rfl
  have hverdict := verdict_readPieces hsize h.nonempty h.size hempty
  rw [returns_iff, start_eq] at hreturns
  rwa [hreturns, List.nil_append, h.flatten] at hverdict

/-- However a stream is cut, the function returns, with the same verdict. -/
theorem verdict_independent_of_cuts {stream : List UInt8} {pieces pieces' : List (List UInt8)}
    (hsize : 320 ≤ bufferSize) (h : Pieces bufferSize stream pieces)
    (h' : Pieces bufferSize stream pieces') :
    (∃ outcome, Returns bufferSize pieces outcome) ∧
    (∃ outcome, Returns bufferSize pieces' outcome) ∧
    ∀ outcome outcome', Returns bufferSize pieces outcome → Returns bufferSize pieces' outcome' →
      SameVerdict stream outcome outcome' ∧ outcome ≠ .failed "Request too large" ∧
        outcome' ≠ .failed "Request too large" := by
  have hreturns : ∀ pieces, ∃ outcome, Returns bufferSize pieces outcome := by
    intro pieces
    obtain ⟨reads, trace, outcome, hreads, hrun, houtcome⟩ :=
      exists_run_readPieces bufferSize Reader.start pieces
    exact ⟨outcome, reads, _, trace, hreads, hrun, houtcome⟩
  refine ⟨hreturns pieces, hreturns pieces', ?_⟩
  intro outcome outcome' houtcome houtcome'
  have hverdict := h.verdict hsize houtcome
  have hverdict' := h'.verdict hsize houtcome'
  exact ⟨sameVerdict_of_verdict hverdict hverdict', hverdict.ne_tooLarge, hverdict'.ne_tooLarge⟩

def sampleRequest : List UInt8 :=
  header (List.Vector.replicate 56 97) 1 (.ipv4 (1 ::ᵥ 2 ::ᵥ 3 ::ᵥ 4 ::ᵥ .nil) 80) ++ [7]

/-- A request with a byte of payload, in one piece and cut before its last two bytes. -/
theorem verdict_of_cut_request :
    ∃ request request', Returns 320 [sampleRequest] (.request request) ∧
      Returns 320 [sampleRequest.take 67, sampleRequest.drop 67] (.request request') ∧
      SameVerdict sampleRequest (.request request) (.request request') := by
  have hpieces : Pieces 320 sampleRequest [sampleRequest] := ⟨rfl, by decide, by decide⟩
  have hpieces' : Pieces 320 sampleRequest [sampleRequest.take 67, sampleRequest.drop 67] :=
    ⟨rfl, by decide, by decide⟩
  obtain ⟨request, hreturns⟩ : ∃ request, Returns 320 [sampleRequest] (.request request) :=
    ⟨_, [.ok sampleRequest], _, _, by decide, rfl, rfl⟩
  obtain ⟨request', hreturns'⟩ : ∃ request,
      Returns 320 [sampleRequest.take 67, sampleRequest.drop 67] (.request request) :=
    ⟨_, [.ok (sampleRequest.take 67), .ok (sampleRequest.drop 67)], _, _, by decide, rfl, rfl⟩
  have hsame := (verdict_independent_of_cuts (Nat.le_refl 320) hpieces hpieces').2.2 _ _ hreturns
    hreturns'
  exact ⟨request, request', hreturns, hreturns', hsame.1⟩

end Cuts

end TrojanServer.RequestReader
