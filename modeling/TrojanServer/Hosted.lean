import Mathlib.Data.List.Induction
import TrojanServer.AsyncIo
import TrojanServer.StepMachine

/-!
A session on top of the transport of its client.  The session is a machine that puts out the
calls it makes on its client; the transport is a machine that serves one call at a time, given
what the world under it has to say, and a call on it gives the result that the session was
told.  Once the session is over the client is shut down.
-/

namespace TrojanServer.Hosted

open TrojanServer.AsyncIo
open TrojanServer.StepMachine

variable {σ ε ω τ α κ : Type}

inductive Closing where
  | notYet
  | polled
  | done
  deriving DecidableEq

structure Host (σ τ : Type) where
  session : σ
  transport : τ
  closing : Closing

inductive Event (ε α : Type) where
  | session (event : ε) (answers : List α)
  /-- A poll of the shutdown of the client. -/
  | closeClient (result : Poll (Except IoError Unit)) (answer : α)

structure Output (ω α κ : Type) where
  output : Option ω
  served : List ((IoCall × α) × κ)

variable (step : σ → ε → Option (σ × ω)) (made : ω → List IoCall) (isOver : σ → Bool)
  (serve : τ → IoCall × α → Option (τ × κ))

def hostStep (s : Host σ τ) : Event ε α → Option (Host σ τ × Output ω α κ)
  | .session event answers =>
      match step s.session event with
      | some (session, output) =>
          if s.closing = .notYet ∧ answers.length = (made output).length then
            (run serve s.transport ((made output).zip answers)).map fun served =>
              (⟨session, served.1, .notYet⟩, ⟨some output, served.2⟩)
          else none
      | none => none
  | .closeClient result answer =>
      if isOver s.session ∧ s.closing ≠ .done then
        (serve s.transport (.pollShutdown result, answer)).map fun served =>
          ({ s with transport := served.1
                    closing := if result = .pending then .polled else .done },
            ⟨none, [((.pollShutdown result, answer), served.2)]⟩)
      else none

def Host.start (session : σ) (transport : τ) : Host σ τ := ⟨session, transport, .notYet⟩

abbrev Trace (ε ω α κ : Type) := List (Event ε α × Output ω α κ)

/-- What the session saw. -/
def sessionTrace (trace : Trace ε ω α κ) : List (ε × ω) :=
  trace.filterMap fun entry =>
    match entry.1, entry.2.output with
    | .session event _, some output => some (event, output)
    | _, _ => none

/-- What the transport served. -/
def served (trace : Trace ε ω α κ) : List ((IoCall × α) × κ) :=
  trace.flatMap fun entry => entry.2.served

def calls (trace : Trace ε ω α κ) : List IoCall := (served trace).map fun entry => entry.1.1

def IsShutdown (call : IoCall) : Prop := ∃ result, call = .pollShutdown result

section Step

variable {step : σ → ε → Option (σ × ω)} {made : ω → List IoCall} {isOver : σ → Bool}
  {serve : τ → IoCall × α → Option (τ × κ)} {s s' : Host σ τ} {event : Event ε α}
  {o : Output ω α κ}

inductive HostCase (step : σ → ε → Option (σ × ω)) (made : ω → List IoCall)
    (isOver : σ → Bool) (serve : τ → IoCall × α → Option (τ × κ)) (s : Host σ τ) :
    Event ε α → Host σ τ → Output ω α κ → Prop
  | session {event : ε} {answers : List α} {session : σ} {transport : τ} {output : ω}
      {served : List ((IoCall × α) × κ)} (hopen : s.closing = .notYet)
      (hlength : answers.length = (made output).length)
      (hstep : step s.session event = some (session, output))
      (hserve : run serve s.transport ((made output).zip answers) = some (transport, served)) :
      HostCase step made isOver serve s (.session event answers) ⟨session, transport, .notYet⟩
        ⟨some output, served⟩
  | closeClient {result : Poll (Except IoError Unit)} {answer : α} {transport : τ} {k : κ}
      {closing : Closing} (hover : isOver s.session = true) (hclosing : closing ≠ .notYet)
      (hserve : serve s.transport (.pollShutdown result, answer) = some (transport, k)) :
      HostCase step made isOver serve s (.closeClient result answer)
        { s with transport, closing } ⟨none, [((.pollShutdown result, answer), k)]⟩

theorem hostCase_of_step (h : hostStep step made isOver serve s event = some (s', o)) :
    HostCase step made isOver serve s event s' o := by
  cases event with
  | session event answers =>
      simp only [hostStep] at h
      split at h
      · rename_i session output hstep
        obtain ⟨⟨hopen, hlength⟩, h⟩ := Option.ite_none_right_eq_some.mp h
        obtain ⟨⟨transport, served⟩, hserve, heq⟩ := Option.map_eq_some_iff.mp h
        cases heq
        exact .session hopen hlength hstep hserve
      · cases h
  | closeClient result answer =>
      obtain ⟨⟨hover, -⟩, h⟩ := Option.ite_none_right_eq_some.mp h
      obtain ⟨⟨transport, k⟩, hserve, heq⟩ := Option.map_eq_some_iff.mp h
      cases heq
      refine .closeClient hover ?_ hserve
      split <;> simp

end Step

section Run

variable {step : σ → ε → Option (σ × ω)} {made : ω → List IoCall} {isOver : σ → Bool}
  {serve : τ → IoCall × α → Option (τ × κ)} {s s' : Host σ τ} {s₀ : σ} {t₀ : τ}
  {trace : Trace ε ω α κ} {event : Event ε α} {o : Output ω α κ}

/-- The session and the transport run on their own; the calls served are those the session
made, and the polls of the shutdown behind them. -/
structure Runs (step : σ → ε → Option (σ × ω)) (made : ω → List IoCall)
    (serve : τ → IoCall × α → Option (τ × κ)) (s₀ : σ) (t₀ : τ) (trace : Trace ε ω α κ)
    (s : Host σ τ) : Prop where
  session : ∃ inputs, run step s₀ inputs = some (s.session, sessionTrace trace)
  transport : ∃ inputs, run serve t₀ inputs = some (s.transport, served trace)
  calls : ∃ polls : List (Poll (Except IoError Unit)), (s.closing = .notYet → polls = []) ∧
    calls trace = (sessionTrace trace).flatMap (fun entry => made entry.2) ++
      polls.map .pollShutdown

theorem sessionTrace_snoc_session (trace : Trace ε ω α κ) (event : ε) (answers : List α)
    (output : ω) (served : List ((IoCall × α) × κ)) :
    sessionTrace (trace ++ [(.session event answers, ⟨some output, served⟩)]) =
      sessionTrace trace ++ [(event, output)] := by
  simp [sessionTrace]

theorem sessionTrace_snoc_closeClient (trace : Trace ε ω α κ)
    (result : Poll (Except IoError Unit)) (answer : α) (o : Output ω α κ) :
    sessionTrace (trace ++ [(.closeClient result answer, o)]) = sessionTrace trace := by
  simp [sessionTrace]

@[simp] theorem served_snoc (trace : Trace ε ω α κ) (event : Event ε α) (o : Output ω α κ) :
    served (trace ++ [(event, o)]) = served trace ++ o.served := by
  simp [served]

theorem calls_snoc (trace : Trace ε ω α κ) (event : Event ε α) (o : Output ω α κ) :
    calls (trace ++ [(event, o)]) = calls trace ++ o.served.map fun entry => entry.1.1 := by
  rw [calls, served_snoc, List.map_append, calls]

theorem Runs.snoc (h : Runs step made serve s₀ t₀ trace s)
    (hcase : HostCase step made isOver serve s event s' o) :
    Runs step made serve s₀ t₀ (trace ++ [(event, o)]) s' := by
  obtain ⟨⟨inputs, hsession⟩, ⟨inputs', htransport⟩, polls, hpolls, hcalls⟩ := h
  cases hcase with
  | @session event answers session transport output served hopen hlength hstep hserve =>
      have hserved : served.map (fun entry => entry.1.1) = made output := by
        have hinputs := congrArg (List.map Prod.fst) (map_fst_of_run hserve)
        rwa [List.map_map, List.map_fst_zip (Nat.le_of_eq hlength.symm)] at hinputs
      refine ⟨⟨_, (run_snoc hsession hstep).trans (by rw [sessionTrace_snoc_session])⟩,
        ⟨_, (run_append htransport hserve).trans (by rw [served_snoc])⟩, [], fun _ => rfl, ?_⟩
      rw [hpolls hopen, List.map_nil, List.append_nil] at hcalls
      rw [calls_snoc, hcalls, hserved, sessionTrace_snoc_session, List.flatMap_append]
      simp
  | @closeClient result answer transport k closing hover hclosing hserve =>
      refine ⟨⟨inputs, ?_⟩, ⟨_, (run_snoc htransport hserve).trans (by rw [served_snoc])⟩,
        polls ++ [result], fun hopen => absurd hopen hclosing, ?_⟩
      · rw [sessionTrace_snoc_closeClient]
        exact hsession
      · rw [calls_snoc, hcalls, sessionTrace_snoc_closeClient, List.append_assoc]
        simp

theorem runs_of_run {events : List (Event ε α)}
    (hrun : run (hostStep step made isOver serve) (.start s₀ t₀) events = some (s, trace)) :
    Runs step made serve s₀ t₀ trace s := by
  refine run_induction hrun ⟨⟨[], rfl⟩, ⟨[], rfl⟩, [], fun _ => rfl, rfl⟩ ?_
  intro _ _ _ _ _ h hstep
  exact h.snoc (hostCase_of_step hstep)

end Run

section Orderly

variable {trace : List IoCall} {polls : List (Poll (Except IoError Unit))}

def isRead : IoCall → Bool
  | .pollRead _ _ => true
  | _ => false

/-- A call that reads asks for at least one byte. -/
def HasRoom (call : IoCall) : Prop := ∀ room result, call = .pollRead room result → 0 < room

/-- A read that failed, which is the last one. -/
def isReadError (call : IoCall) : Bool := isRead call && call.isError

def LastRead (call call' : IoCall) : Prop := isReadError call = true → isRead call' = false

/-- A shutdown is followed by nothing but more polls of it. -/
def LastShutdown (call call' : IoCall) : Prop := IsShutdown call → IsShutdown call'

/-- How a session calls its client, as far as transports depend on it. -/
structure Orderly (calls : List IoCall) : Prop where
  rooms : ∀ call ∈ calls, HasRoom call
  reads : calls.Pairwise LastRead
  shutdowns : calls.Pairwise LastShutdown

theorem orderly_append (hrooms : ∀ call ∈ trace, HasRoom call) (hreads : trace.Pairwise LastRead)
    (hopen : ∀ call ∈ trace, ¬ IsShutdown call) :
    Orderly (trace ++ polls.map IoCall.pollShutdown) := by
  have hpolls : ∀ call ∈ polls.map IoCall.pollShutdown, IsShutdown call := by
    intro call hcall
    obtain ⟨result, -, rfl⟩ := List.mem_map.mp hcall
    exact ⟨result, rfl⟩
  have hquiet : ∀ call ∈ polls.map IoCall.pollShutdown, isRead call = false := by
    intro call hcall
    obtain ⟨result, rfl⟩ := hpolls call hcall
    rfl
  refine ⟨?_, ?_, ?_⟩
  · intro call hcall
    rcases List.mem_append.mp hcall with hold | hnew
    · exact hrooms call hold
    · obtain ⟨result, rfl⟩ := hpolls call hnew
      rintro _ _ ⟨⟩
  · refine List.pairwise_append.mpr ⟨hreads, ?_, fun _ _ call' hcall' _ => hquiet call' hcall'⟩
    exact List.pairwise_of_forall_mem_list fun _ _ call' hcall' _ => hquiet call' hcall'
  · refine List.pairwise_append.mpr ⟨?_, ?_, ?_⟩
    · exact List.pairwise_of_forall_mem_list fun call hcall _ _ hshutdown =>
        absurd hshutdown (hopen call hcall)
    · exact List.pairwise_of_forall_mem_list fun _ _ call' hcall' _ => hpolls call' hcall'
    · exact fun call hcall _ _ hshutdown => absurd hshutdown (hopen call hcall)

@[simp] theorem returnedBytes_shutdowns (polls : List (Poll (Except IoError Unit))) :
    returnedBytes (polls.map IoCall.pollShutdown) = [] := by
  refine List.flatMap_eq_nil_iff.mpr fun call hcall => ?_
  obtain ⟨result, -, rfl⟩ := List.mem_map.mp hcall
  rfl

@[simp] theorem acceptedBytes_shutdowns (polls : List (Poll (Except IoError Unit))) :
    acceptedBytes (polls.map IoCall.pollShutdown) = [] := by
  refine List.flatMap_eq_nil_iff.mpr fun call hcall => ?_
  obtain ⟨result, -, rfl⟩ := List.mem_map.mp hcall
  rfl

/-- The last call that was no read. -/
def lastWrite (calls : List IoCall) : Option IoCall :=
  (calls.filter fun call => !isRead call).getLast?

def Flushed (calls : List IoCall) : Prop :=
  ∀ call, lastWrite calls = some call → call = .pollFlush (.ready (.ok ()))

theorem lastWrite_append (calls calls' : List IoCall) :
    lastWrite (calls ++ calls') = (lastWrite calls').or (lastWrite calls) := by
  rw [lastWrite, List.filter_append, List.getLast?_append, lastWrite, lastWrite]

theorem Flushed.append {calls calls' : List IoCall} (h : Flushed calls) (h' : Flushed calls') :
    Flushed (calls ++ calls') := by
  intro call hlast
  rw [lastWrite_append] at hlast
  rcases Option.or_eq_some_iff.mp hlast with hnew | ⟨-, hold⟩
  · exact h' call hnew
  · exact h call hold

/-- What a transport did last for calls of which the last was a flush, if it does nothing for
a read. -/
theorem Flushed.last {η β : Type} {call : η → IoCall} {did : η → List β} {P : β → Prop}
    {entries : List η} (h : Flushed (entries.map call))
    (hread : ∀ e ∈ entries, isRead (call e) = true → did e = [])
    (hflush : ∀ e ∈ entries, call e = .pollFlush (.ready (.ok ())) → ∃ b, did e = [b] ∧ P b) :
    ∀ b, (entries.flatMap did).getLast? = some b → P b := by
  induction entries using List.reverseRecOn with
  | nil => simp
  | append_singleton entries e ih =>
      intro b hlast
      rw [List.flatMap_append, List.flatMap_singleton] at hlast
      by_cases hcall : isRead (call e) = true
      · rw [hread e (by simp) hcall, List.append_nil] at hlast
        refine ih ?_ (fun e' he' => hread e' (by simp [he']))
          (fun e' he' => hflush e' (by simp [he'])) b hlast
        intro c hc
        refine h c ?_
        rw [List.map_append, lastWrite_append]
        simp [lastWrite, hcall, ← hc]
      · have hc : lastWrite ((entries ++ [e]).map call) = some (call e) := by
          rw [List.map_append, lastWrite_append]
          simp [lastWrite, hcall]
        obtain ⟨b', hdid, hb'⟩ := hflush e (by simp) (h _ hc)
        rw [hdid, List.getLast?_append, List.getLast?_singleton] at hlast
        cases hlast
        exact hb'

theorem pollRead_of_isEof {call : IoCall} (h : call.isEof = true) :
    ∃ room, call = .pollRead room (.ready (.ok [])) := by
  unfold IoCall.isEof at h
  split at h
  · exact ⟨_, rfl⟩
  · cases h

end Orderly

end TrojanServer.Hosted
