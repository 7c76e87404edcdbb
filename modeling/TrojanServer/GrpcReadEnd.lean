import TrojanServer.GrpcReassembly

namespace TrojanServer.GrpcReceive

open TrojanServer.AsyncIo
open TrojanServer.GrpcCodec
open TrojanServer.StepMachine

variable {before trace : Trace} {t t' : ReadSide} {room : Nat}

theorem InboundFrames.payloads_isPrefix {bytes bytes' : List UInt8}
    {payloads payloads' : List (List UInt8)} (h : InboundFrames bytes payloads)
    (h' : InboundFrames bytes' payloads') (hin : bytes' <+: bytes) : payloads' <+: payloads := by
  induction h generalizing bytes' payloads' with
  | nil =>
      obtain rfl := List.prefix_nil.mp hin
      rw [h'.payloads_unique .nil]
  | @cons frame payload bytes payloads hframe _ ih =>
      cases h' with
      | nil => exact List.nil_prefix
      | @cons frame' payload' tail _ hframe' hrest =>
          obtain ⟨rfl, rfl⟩ := isFrame_unique hframe'.1 hframe.1
            ((List.prefix_append _ _).trans hin) (List.prefix_append _ _)
          exact List.cons_prefix_cons.mpr
            ⟨rfl, ih hrest ((List.prefix_append_right_inj _).mp hin)⟩

/-- A read of no bytes leaves the transport closed. -/
theorem readClosed_of_eof (hroom : 0 < room) (h : (t.pollRead room).2 = .ready (.ok [])) :
    (t.pollRead room).1.readClosed = true := by
  have hcase := pollRead_cases t room
  generalize t.pollRead room = r at h hcase
  cases hcase with
  | closed hclosed => exact hclosed
  | leftover _ hprogress =>
      cases h
      exact absurd rfl (hprogress hroom)
  | loop hread hpulls hend =>
      cases hend with
      | payload hframe hpayload hpending =>
          obtain ⟨-, hbuf, hpos, -, -⟩ := hpulls.skipped
          rw [← hbuf, ← hpos] at hread
          obtain ⟨buf, pos, bytes, hdeliver, -, hprogress⟩ :=
            deliver_cases (ReadSide.consumed _ _ _) room hpayload hread
          rw [hdeliver] at h
          cases h
          exact absurd rfl (hprogress hroom)
      | oversized => cases h
      | malformed => cases h
      | failed => rfl
      | ended => rfl
      | waiting => cases h

def IsError (o : Option ReadResult) : Prop := ∃ e, o = some (.ready (.error e))

/-- Nothing is read after an error. -/
def LastRead (entry entry' : Event × Option ReadResult) : Prop :=
  IsError entry.2 → entry'.2 = none

/-- A read has given a terminal result, and nothing was read since. -/
def Over (trace : Trace) (t : ReadSide) : Prop :=
  ∃ before room result after, trace = before ++ (.read room, some result) :: after ∧
    Unfinished before ∧ IsTerminal result ∧ returned after = [] ∧
    (result = .ready (.ok []) → t.readClosed = true)

theorem over_step {event : Event} {o : Option ReadResult} (h : Over trace t)
    (hlast : ∀ entry ∈ trace, LastRead entry (event, o)) (hstep : t.step event = some (t', o)) :
    Over (trace ++ [(event, o)]) t' := by
  obtain ⟨before, room, result, after, rfl, hbefore, hterminal, hafter, hclosed⟩ := h
  refine ⟨before, room, result, after ++ [(event, o)], by simp, hbefore, hterminal, ?_, ?_⟩
  · rw [returned_snoc, hafter, List.nil_append]
    cases event_cases hstep with
    | read room' =>
        rcases hterminal with rfl | ⟨e, rfl⟩
        · rw [ReadSide.pollRead, if_pos (hclosed rfl)]
          rfl
        · cases hlast (.read room, some (.ready (.error e))) (by simp) ⟨e, rfl⟩
    | _ => rfl
  · intro heof
    cases event_cases hstep with
    | read room' =>
        rw [ReadSide.pollRead, if_pos (hclosed heof)]
        exact hclosed heof
    | _ => exact hclosed heof

/-- Either no read was the last one yet, or one was. -/
theorem over_of_run {activity : Option Bool} {inputs : List Event}
    (hrun : run ReadSide.step (.start activity) inputs = some (t, trace))
    (hregular : ∀ event ∈ trace.map Prod.fst, Regular event) (hlast : trace.Pairwise LastRead) :
    Unfinished trace ∨ Over trace t := by
  revert hregular hlast
  refine run_induction (P := fun trace t => (∀ event ∈ trace.map Prod.fst, Regular event) →
    trace.Pairwise LastRead → Unfinished trace ∨ Over trace t) hrun (fun _ _ => .inl nofun) ?_
  intro trace t event t' o ih hstep hregular hlast
  obtain ⟨hpair, -, hcross⟩ := List.pairwise_append.mp hlast
  have hevent := hregular event (by simp)
  rcases ih (fun event hevent => hregular event (by simp [hevent])) hpair with hunfinished | hover
  · cases event_cases hstep with
    | read room =>
        by_cases hterminal : IsTerminal (t.pollRead room).2
        · exact .inr ⟨trace, room, _, [], rfl, hunfinished, hterminal, rfl,
            readClosed_of_eof (hevent.2 room rfl)⟩
        · refine .inl fun entry hentry result hresult => ?_
          rcases List.mem_append.mp hentry with hold | hnew
          · exact hunfinished entry hold result hresult
          · obtain rfl := List.mem_singleton.mp hnew
            cases hresult
            exact hterminal
    | _ =>
        refine .inl fun entry hentry result hresult => ?_
        rcases List.mem_append.mp hentry with hold | hnew
        · exact hunfinished entry hold result hresult
        · obtain rfl := List.mem_singleton.mp hnew
          cases hresult
  · exact .inr (over_step hover (fun entry hentry => hcross entry hentry _ (by simp)) hstep)

theorem returned_append (before after : Trace) :
    returned (before ++ after) = returned before ++ returned after := List.flatMap_append

theorem returnedBy_of_isTerminal {result : ReadResult} (h : IsTerminal result) :
    returnedBy (some result) = [] := by
  rcases h with rfl | ⟨e, rfl⟩ <;> rfl

/-- What was returned comes from complete frames, and from all of them at end of file. -/
theorem frames_of_run {activity : Option Bool} {inputs : List Event}
    (hrun : run ReadSide.step (.start activity) inputs = some (t, trace))
    (hregular : ∀ event ∈ trace.map Prod.fst, Regular event) (hlast : trace.Pairwise LastRead) :
    ∃ bytes payloads, InboundFrames bytes payloads ∧ bytes <+: arrived trace ∧
      returned trace <+: payloads.flatten ∧
      ((∃ entry ∈ trace, entry.2 = some (.ready (.ok []))) →
        bytes = arrived trace ∧ returned trace = payloads.flatten) := by
  have hover := over_of_run hrun hregular hlast
  rw [map_fst_of_run hrun] at hregular
  obtain ⟨hinv, hevents⟩ := runInv_run hrun hregular
  rcases hover with hunfinished | ⟨before, room, result, after, rfl, hbefore, hterminal, hafter, -⟩
  · obtain ⟨⟨bytes, payloads, hframes, harrived, hreturned⟩, -⟩ := hinv.2 hunfinished
    refine ⟨bytes, payloads, hframes, ?_, ?_, ?_⟩
    · rw [harrived]
      exact List.prefix_append _ _
    · rw [hreturned]
      exact List.prefix_append _ _
    · rintro ⟨entry, hentry, heof⟩
      exact absurd (.inl rfl) (hunfinished entry hentry _ heof)
  · obtain ⟨result', hresult', hspec⟩ := (hevents before _ _ after rfl).read room rfl
    cases hresult'
    obtain ⟨bytes, payloads, rest, hframes, harrived, hreturned, -, hverdict⟩ :=
      (hspec hbefore).1 hterminal
    have hall : returned (before ++ (.read room, some result) :: after) = returned before := by
      have hcons : returned ((.read room, some result) :: after) =
          returnedBy (some result) ++ returned after := by simp [returned]
      rw [returned_append, hcons, returnedBy_of_isTerminal hterminal, hafter, List.append_nil,
        List.append_nil]
    refine ⟨bytes, payloads, hframes, ?_, ?_, ?_⟩
    · rw [arrived_append, harrived, List.append_assoc]
      exact List.prefix_append _ _
    · rw [hall, hreturned]
    · rintro ⟨entry, hentry, heof⟩
      rcases hverdict with ⟨-, hrest, hended⟩ | ⟨⟨e, rfl⟩, -⟩
      · refine ⟨?_, hall.trans hreturned.symm⟩
        rw [arrived_append, harrived, hrest, arrived_eq_nil hended hevents, List.append_nil,
          List.append_nil]
      · obtain ⟨-, hpair, -⟩ := List.pairwise_append.mp hlast
        rcases List.mem_append.mp hentry with hold | hnew
        · exact absurd (.inl rfl) (hbefore entry hold _ heof)
        · rcases List.mem_cons.mp hnew with rfl | hlater
          · cases heof
          · rw [(List.pairwise_cons.mp hpair).1 entry hlater ⟨e, rfl⟩] at heof
            cases heof

end TrojanServer.GrpcReceive
