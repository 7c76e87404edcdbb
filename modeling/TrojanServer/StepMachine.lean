import Mathlib.Data.List.Basic

/-!
Runs of a partial step function that consumes one input and emits one output
at a time.  Invariants are proved over histories: a history grows at its end,
and `Along` restricts the runs considered to those whose steps meet a condition.
-/

namespace TrojanServer.StepMachine

variable {σ ι ω : Type*} {step : σ → ι → Option (σ × ω)}

/-- Feed the inputs to the machine and collect every input with the output it
produced.  The run is undefined as soon as one step is. -/
def run (step : σ → ι → Option (σ × ω)) : σ → List ι → Option (σ × List (ι × ω))
  | s, [] => some (s, [])
  | s, i :: inputs =>
      match step s i with
      | none => none
      | some (s', o) => (run step s' inputs).map fun r => (r.1, (i, o) :: r.2)

theorem run_cons {s s' s'' : σ} {i : ι} {o : ω} {inputs : List ι} {trace : List (ι × ω)}
    (hstep : step s i = some (s', o)) (hrun : run step s' inputs = some (s'', trace)) :
    run step s (i :: inputs) = some (s'', (i, o) :: trace) := by
  simp [run, hstep, hrun]

theorem of_run_cons {s s'' : σ} {i : ι} {inputs : List ι} {trace : List (ι × ω)}
    (hrun : run step s (i :: inputs) = some (s'', trace)) :
    ∃ s' o rest, step s i = some (s', o) ∧ run step s' inputs = some (s'', rest) ∧
      trace = (i, o) :: rest := by
  simp only [run] at hrun
  split at hrun
  · cases hrun
  · rename_i s' o hstep
    obtain ⟨⟨s₁, rest⟩, hrest, heq⟩ := Option.map_eq_some_iff.mp hrun
    cases heq
    exact ⟨s', o, rest, hstep, hrest, rfl⟩

theorem map_fst_of_run {s s' : σ} {inputs : List ι} {trace : List (ι × ω)}
    (hrun : run step s inputs = some (s', trace)) : trace.map Prod.fst = inputs := by
  induction inputs generalizing s trace with
  | nil =>
      cases hrun
      rfl
  | cons i inputs ih =>
      obtain ⟨s₁, o, rest, -, hrest, rfl⟩ := of_run_cons hrun
      rw [List.map_cons, ih hrest]

theorem run_append {s s' s'' : σ} {inputs inputs' : List ι} {trace trace' : List (ι × ω)}
    (hrun : run step s inputs = some (s', trace))
    (hrun' : run step s' inputs' = some (s'', trace')) :
    run step s (inputs ++ inputs') = some (s'', trace ++ trace') := by
  induction inputs generalizing s trace with
  | nil =>
      cases hrun
      exact hrun'
  | cons i inputs ih =>
      obtain ⟨s₁, o, rest, hstep, hrest, rfl⟩ := of_run_cons hrun
      exact run_cons hstep (ih hrest)

theorem run_snoc {s s' s'' : σ} {i : ι} {o : ω} {inputs : List ι} {trace : List (ι × ω)}
    (hrun : run step s inputs = some (s', trace)) (hstep : step s' i = some (s'', o)) :
    run step s (inputs ++ [i]) = some (s'', trace ++ [(i, o)]) :=
  run_append hrun (run_cons hstep rfl)

/-- A run of one machine is followed by another one that can match its every step. -/
theorem run_simulation {σ' ι' ω' : Type*} {step' : σ' → ι' → Option (σ' × ω')}
    {R : σ → σ' → Prop} {f : ι → ι'}
    (hstep : ∀ s t i s' o, R s t → step s i = some (s', o) →
      ∃ t' o', step' t (f i) = some (t', o') ∧ R s' t')
    {s s' : σ} {t : σ'} {inputs : List ι} {trace : List (ι × ω)} (hR : R s t)
    (hrun : run step s inputs = some (s', trace)) :
    ∃ t' trace', run step' t (inputs.map f) = some (t', trace') ∧ R s' t' := by
  induction inputs generalizing s t trace with
  | nil =>
      cases hrun
      exact ⟨t, [], rfl, hR⟩
  | cons i inputs ih =>
      obtain ⟨s₁, o, rest, hs, hrest, rfl⟩ := of_run_cons hrun
      obtain ⟨t₁, o', ht, hR₁⟩ := hstep s t i s₁ o hR hs
      obtain ⟨t', trace', hrun', hR'⟩ := ih hR₁ hrest
      exact ⟨t', (f i, o') :: trace', run_cons ht hrun', hR'⟩

/-- Every step of the run of `inputs` from a state meets a condition on the state
before it and its input. -/
def Along (step : σ → ι → Option (σ × ω)) (C : σ → ι → Prop) : σ → List ι → Prop
  | _, [] => True
  | s, i :: inputs => C s i ∧ ∀ s' o, step s i = some (s', o) → Along step C s' inputs

theorem along_of_mem {C : σ → ι → Prop} {inputs : List ι} (h : ∀ i ∈ inputs, ∀ s, C s i)
    (s : σ) : Along step C s inputs := by
  induction inputs generalizing s with
  | nil => trivial
  | cons i inputs ih =>
      exact ⟨h i (by simp) s, fun s' _ _ => ih (fun j hj => h j (by simp [hj])) s'⟩

theorem along_trivial (s : σ) (inputs : List ι) : Along step (fun _ _ => True) s inputs :=
  along_of_mem (fun _ _ _ => trivial) s

theorem along_cons {C : σ → ι → Prop} {s s' : σ} {i : ι} {o : ω} {inputs : List ι}
    (hstep : step s i = some (s', o)) (hc : C s i) (h : Along step C s' inputs) :
    Along step C s (i :: inputs) := by
  refine ⟨hc, ?_⟩
  intro s'' o' hstep'
  rw [hstep] at hstep'
  cases hstep'
  exact h

theorem along_and {C C' : σ → ι → Prop} {s : σ} {inputs : List ι} (h : Along step C s inputs)
    (h' : Along step C' s inputs) : Along step (fun s i => C s i ∧ C' s i) s inputs := by
  induction inputs generalizing s with
  | nil => trivial
  | cons i inputs ih =>
      refine ⟨⟨h.1, h'.1⟩, ?_⟩
      intro s' o hstep
      exact ih (h.2 s' o hstep) (h'.2 s' o hstep)

/-- Induction over histories: a property that holds before the first step and is
kept by every step that meets the condition holds after every run whose steps
all do. -/
theorem run_induction_along {C : σ → ι → Prop} {P : List (ι × ω) → σ → Prop} {s₀ s : σ}
    {inputs : List ι} {trace : List (ι × ω)} (hrun : run step s₀ inputs = some (s, trace))
    (halong : Along step C s₀ inputs) (hstart : P [] s₀)
    (hstep : ∀ trace s i s' o, P trace s → C s i → step s i = some (s', o) →
      P (trace ++ [(i, o)]) s') : P trace s := by
  -- the history grows at its end, so what came before the run is generalised
  suffices h : ∀ before, P before s₀ → P (before ++ trace) s by
    simpa using h [] hstart
  clear hstart
  induction inputs generalizing s₀ trace with
  | nil =>
      simp only [run, Option.some.injEq, Prod.mk.injEq] at hrun
      obtain ⟨rfl, rfl⟩ := hrun
      simp
  | cons i inputs ih =>
      obtain ⟨s', o, rest, hs, hrest, rfl⟩ := of_run_cons hrun
      intro before hbefore
      have hnext := hstep before s₀ i s' o hbefore halong.1 hs
      simpa using ih hrest (halong.2 s' o hs) (before ++ [(i, o)]) hnext

theorem run_induction {P : List (ι × ω) → σ → Prop} {s₀ s : σ} {inputs : List ι}
    {trace : List (ι × ω)} (hrun : run step s₀ inputs = some (s, trace))
    (hstart : P [] s₀)
    (hstep : ∀ trace s i s' o, P trace s → step s i = some (s', o) →
      P (trace ++ [(i, o)]) s') : P trace s :=
  run_induction_along hrun (along_trivial s₀ inputs) hstart
    fun trace s i s' o h _ => hstep trace s i s' o h

theorem snoc_split {α : Type*} {history before after : List α} {last event : α}
    (h : history ++ [last] = before ++ event :: after) :
    (before = history ∧ event = last ∧ after = []) ∨
      ∃ after', after = after' ++ [last] ∧ history = before ++ event :: after' := by
  rcases List.eq_nil_or_concat after with rfl | ⟨after', x, rfl⟩
  · obtain ⟨rfl, hlast⟩ := List.append_inj' h rfl
    exact .inl ⟨rfl, by simpa using hlast.symm, rfl⟩
  · rw [List.concat_eq_append, ← List.cons_append, ← List.append_assoc] at h
    obtain ⟨rfl, hlast⟩ := List.append_inj' h rfl
    exact .inr ⟨after', by simpa using hlast.symm, rfl⟩

/-- Induction over histories together with a property of every event, given what
came before it. -/
theorem run_induction_events {C : σ → ι → Prop} {P : List (ι × ω) → σ → Prop}
    {Q : List (ι × ω) → ι → ω → Prop} {s₀ s : σ} {inputs : List ι} {trace : List (ι × ω)}
    (hrun : run step s₀ inputs = some (s, trace)) (halong : Along step C s₀ inputs)
    (hstart : P [] s₀)
    (hstep : ∀ trace s i s' o, P trace s → C s i → step s i = some (s', o) →
      P (trace ++ [(i, o)]) s' ∧ Q trace i o) :
    P trace s ∧ ∀ before i o after, trace = before ++ (i, o) :: after → Q before i o := by
  refine run_induction_along (P := fun trace s => P trace s ∧
    ∀ before i o after, trace = before ++ (i, o) :: after → Q before i o) hrun halong ?_ ?_
  · exact ⟨hstart, by simp⟩
  · rintro trace s i s' o ⟨hP, hQ⟩ hC hs
    obtain ⟨hP', hnew⟩ := hstep trace s i s' o hP hC hs
    refine ⟨hP', ?_⟩
    intro before i' o' after hsplit
    rcases snoc_split hsplit with ⟨rfl, heq, -⟩ | ⟨after', -, hold⟩
    · cases heq
      exact hnew
    · exact hQ before i' o' after' hold

theorem forall_mem_of_split {Q : ι → ω → Prop} {trace : List (ι × ω)}
    (h : ∀ before i o after, trace = before ++ (i, o) :: after → Q i o) :
    ∀ i o, (i, o) ∈ trace → Q i o := by
  intro i o hmem
  obtain ⟨before, after, hsplit⟩ := List.append_of_mem hmem
  exact h before i o after hsplit

end TrojanServer.StepMachine
