import Mathlib.Data.Finset.Card

/-!
A fair counting semaphore as its callers see it.  The implementation is a parameter; what is
assumed of it is `Lawful`, over a view that names who holds a permit and who waits for one.  A
permit, and an `acquire` that has not returned, is named by the task that asked for it.
-/

namespace TrojanServer

/-- `acquire` is the first poll of the future; from then on `granted` tells whether a poll of it
returns, and `cancel` drops it.  `release` drops a permit. -/
structure SemaphoreApi (σ τ : Type) where
  new : Nat → σ
  tryAcquire : σ → τ → Option σ
  acquire : σ → τ → σ
  granted : σ → τ → Bool
  release : σ → τ → σ
  cancel : σ → τ → σ

structure SemaphoreView (τ : Type) where
  permits : Nat
  holders : Finset τ
  waiters : List τ

variable {σ τ : Type} [DecidableEq τ]

/-- What is assumed of an implementation.  `release_fifo` is its fairness: a permit given back
while somebody waits goes to the first in line and is never free in between. -/
structure SemaphoreApi.Lawful (api : SemaphoreApi σ τ) (view : σ → SemaphoreView τ) : Prop where
  new : ∀ n, view (api.new n) = ⟨n, ∅, []⟩
  tryAcquire_free : ∀ s task, 0 < (view s).permits → ∃ s', api.tryAcquire s task = some s' ∧
    view s' = ⟨(view s).permits - 1, insert task (view s).holders, (view s).waiters⟩
  tryAcquire_exhausted : ∀ s task, (view s).permits = 0 → api.tryAcquire s task = none
  acquire_free : ∀ s task, 0 < (view s).permits → (view s).waiters = [] →
    view (api.acquire s task) = ⟨(view s).permits - 1, insert task (view s).holders, []⟩
  acquire_exhausted : ∀ s task, (view s).permits = 0 →
    view (api.acquire s task) = ⟨0, (view s).holders, (view s).waiters ++ [task]⟩
  granted_iff : ∀ s task, api.granted s task = true ↔ task ∈ (view s).holders
  release_idle : ∀ s task, task ∈ (view s).holders → (view s).waiters = [] →
    view (api.release s task) = ⟨(view s).permits + 1, (view s).holders.erase task, []⟩
  release_fifo : ∀ s task first rest, task ∈ (view s).holders → (view s).waiters = first :: rest →
    view (api.release s task) =
      ⟨(view s).permits, insert first ((view s).holders.erase task), rest⟩
  cancel_waiting : ∀ s task, task ∈ (view s).waiters → task ∉ (view s).holders →
    view (api.cancel s task) = ⟨(view s).permits, (view s).holders, (view s).waiters.erase task⟩
  cancel_granted : ∀ s task, task ∈ (view s).holders →
    view (api.cancel s task) = view (api.release s task)

namespace SemaphoreView

variable {v v' : SemaphoreView τ} {task other : τ} {total : Nat}

/-- A task that has a permit, or is in line for one. -/
def Asked (v : SemaphoreView τ) (task : τ) : Prop := task ∈ v.holders ∨ task ∈ v.waiters

structure Valid (v : SemaphoreView τ) (total : Nat) : Prop where
  conserved : v.permits + v.holders.card = total
  exhausted : v.waiters ≠ [] → v.permits = 0
  apart : ∀ task ∈ v.waiters, task ∉ v.holders
  distinct : v.waiters.Nodup

omit [DecidableEq τ] in
theorem Valid.card_holders_eq (h : v.Valid total) (hnone : v.permits = 0) :
    v.holders.card = total := by
  have hconserved := h.conserved
  omega

omit [DecidableEq τ] in
theorem Valid.card_holders_le (h : v.Valid total) : v.holders.card ≤ total := by
  have hconserved := h.conserved
  omega

theorem mem_holders_union_waiters : task ∈ v.holders ∪ v.waiters.toFinset ↔ v.Asked task := by
  simp [Asked]

theorem Valid.card_holders_union_waiters (h : v.Valid total) :
    (v.holders ∪ v.waiters.toFinset).card = v.holders.card + v.waiters.length := by
  rw [Finset.card_union_of_disjoint, List.toFinset_card_of_nodup h.distinct]
  refine Finset.disjoint_left.mpr fun waiter hheld hwaits => ?_
  exact h.apart waiter (List.mem_toFinset.mp hwaits) hheld

/-- One permit is taken. -/
structure Takes (v : SemaphoreView τ) (task : τ) (v' : SemaphoreView τ) : Prop where
  permits : 0 < v.permits
  view : v' = ⟨v.permits - 1, insert task v.holders, v.waiters⟩

theorem Takes.valid (h : v.Takes task v') (hvalid : v.Valid total) (hfree : task ∉ v.holders) :
    v'.Valid total := by
  obtain ⟨hpos, rfl⟩ := h
  have hnone : v.waiters = [] := by
    by_contra hwaiters
    have := hvalid.exhausted hwaiters
    omega
  refine ⟨?_, ?_, ?_, hvalid.distinct⟩
  · have hconserved := hvalid.conserved
    change v.permits - 1 + (insert task v.holders).card = total
    rw [Finset.card_insert_of_notMem hfree]
    omega
  · simp [hnone]
  · simp [hnone]

theorem Takes.asked (h : v.Takes task v') (other : τ) :
    v'.Asked other ↔ other = task ∨ v.Asked other := by
  obtain ⟨-, rfl⟩ := h
  simp only [Asked, Finset.mem_insert, or_assoc]

/-- A task gets in line. -/
structure Queues (v : SemaphoreView τ) (task : τ) (v' : SemaphoreView τ) : Prop where
  permits : v.permits = 0
  view : v' = ⟨0, v.holders, v.waiters ++ [task]⟩

omit [DecidableEq τ] in
theorem Queues.valid (h : v.Queues task v') (hvalid : v.Valid total) (hfree : ¬ v.Asked task) :
    v'.Valid total := by
  obtain ⟨hnone, rfl⟩ := h
  obtain ⟨hholds, hwaits⟩ := not_or.mp hfree
  refine ⟨?_, fun _ => rfl, ?_, ?_⟩
  · have hconserved := hvalid.conserved
    simpa [hnone] using hconserved
  · intro waiter hwaiter
    rcases List.mem_append.mp hwaiter with hold | hnew
    · exact hvalid.apart waiter hold
    · rw [List.mem_singleton.mp hnew]
      exact hholds
  · refine hvalid.distinct.append (List.nodup_singleton task) ?_
    simpa using hwaits

omit [DecidableEq τ] in
theorem Queues.asked (h : v.Queues task v') (other : τ) :
    v'.Asked other ↔ other = task ∨ v.Asked other := by
  obtain ⟨-, rfl⟩ := h
  simp only [Asked, List.mem_append, List.mem_singleton]
  tauto

/-- A permit is given back: it is free again, or with the first in line. -/
inductive GivesBack (v : SemaphoreView τ) (task : τ) : SemaphoreView τ → Prop
  | idle (hwaiters : v.waiters = []) :
      GivesBack v task ⟨v.permits + 1, v.holders.erase task, []⟩
  | handed {first : τ} {rest : List τ} (hwaiters : v.waiters = first :: rest) :
      GivesBack v task ⟨v.permits, insert first (v.holders.erase task), rest⟩

theorem GivesBack.valid (h : v.GivesBack task v') (hvalid : v.Valid total)
    (hheld : task ∈ v.holders) : v'.Valid total := by
  have hconserved := hvalid.conserved
  have hpos := Finset.card_pos.mpr ⟨task, hheld⟩
  cases h with
  | idle hwaiters =>
      refine ⟨?_, by simp, by simp, List.nodup_nil⟩
      change v.permits + 1 + (v.holders.erase task).card = total
      rw [Finset.card_erase_of_mem hheld]
      omega
  | @handed first rest hwaiters =>
      have hdistinct := hvalid.distinct
      rw [hwaiters] at hdistinct
      have hapart : first ∉ v.holders := hvalid.apart first (by simp [hwaiters])
      refine ⟨?_, ?_, ?_, (List.nodup_cons.mp hdistinct).2⟩
      · change v.permits + (insert first (v.holders.erase task)).card = total
        rw [Finset.card_insert_of_notMem (fun hmem => hapart (Finset.mem_of_mem_erase hmem)),
          Finset.card_erase_of_mem hheld]
        omega
      · intro _
        exact hvalid.exhausted (by simp [hwaiters])
      · intro other hother hmem
        rcases Finset.mem_insert.mp hmem with rfl | hmem
        · exact (List.nodup_cons.mp hdistinct).1 hother
        · exact hvalid.apart other (by simp [hwaiters, hother]) (Finset.mem_of_mem_erase hmem)

theorem GivesBack.asked (h : v.GivesBack task v') (hout : task ∉ v.waiters) (other : τ) :
    v'.Asked other ↔ other ≠ task ∧ v.Asked other := by
  cases h with
  | idle hwaiters => simp [Asked, hwaiters]
  | @handed first rest hwaiters =>
      simp only [Asked, hwaiters, Finset.mem_insert, Finset.mem_erase, List.mem_cons]
      have hne : other = task → other ≠ first ∧ other ∉ rest := by
        rintro rfl
        simpa [hwaiters] using hout
      tauto

theorem GivesBack.waiters (h : v.GivesBack task v') (hother : other ∈ v'.waiters) :
    other ∈ v.waiters := by
  cases h with
  | idle hwaiters => simp at hother
  | @handed first rest hwaiters =>
      rw [hwaiters]
      exact List.mem_cons_of_mem first hother

/-- A task leaves the line. -/
structure Leaves (v : SemaphoreView τ) (task : τ) (v' : SemaphoreView τ) : Prop where
  waits : task ∈ v.waiters
  view : v' = ⟨v.permits, v.holders, v.waiters.erase task⟩

theorem Leaves.valid (h : v.Leaves task v') (hvalid : v.Valid total) : v'.Valid total := by
  obtain ⟨hwaits, rfl⟩ := h
  refine ⟨hvalid.conserved, ?_, ?_, hvalid.distinct.erase task⟩
  · intro _
    exact hvalid.exhausted (List.ne_nil_of_mem hwaits)
  · intro other hother
    exact hvalid.apart other (List.mem_of_mem_erase hother)

theorem Leaves.asked (h : v.Leaves task v') (hvalid : v.Valid total) (other : τ) :
    v'.Asked other ↔ other ≠ task ∧ v.Asked other := by
  obtain ⟨hwaits, rfl⟩ := h
  have hout := hvalid.apart task hwaits
  simp only [Asked, hvalid.distinct.mem_erase_iff]
  constructor
  · rintro (hheld | ⟨hne, hother⟩)
    · exact ⟨fun heq => hout (heq ▸ hheld), .inl hheld⟩
    · exact ⟨hne, .inr hother⟩
  · rintro ⟨hne, hheld | hother⟩
    · exact .inl hheld
    · exact .inr ⟨hne, hother⟩

end SemaphoreView

namespace SemaphoreApi.Lawful

variable {api : SemaphoreApi σ τ} {view : σ → SemaphoreView τ} {s s' : σ} {task : τ}
  {total : Nat}

theorem takes_of_tryAcquire (h : api.Lawful view) (htry : api.tryAcquire s task = some s') :
    (view s).Takes task (view s') := by
  rcases Nat.eq_zero_or_pos (view s).permits with hnone | hpos
  · rw [h.tryAcquire_exhausted s task hnone] at htry
    cases htry
  · obtain ⟨s₁, hfree, hview⟩ := h.tryAcquire_free s task hpos
    rw [hfree] at htry
    cases htry
    exact ⟨hpos, hview⟩

theorem exhausted_of_tryAcquire (h : api.Lawful view) (htry : api.tryAcquire s task = none) :
    (view s).permits = 0 := by
  by_contra hfree
  obtain ⟨s', hsome, -⟩ := h.tryAcquire_free s task (Nat.pos_of_ne_zero hfree)
  rw [htry] at hsome
  cases hsome

theorem acquire_cases (h : api.Lawful view) (hvalid : (view s).Valid total) :
    (view s).Takes task (view (api.acquire s task)) ∨
      (view s).Queues task (view (api.acquire s task)) := by
  rcases Nat.eq_zero_or_pos (view s).permits with hnone | hpos
  · exact .inr ⟨hnone, h.acquire_exhausted s task hnone⟩
  · have hwaiters : (view s).waiters = [] := by
      by_contra hwaiters
      have := hvalid.exhausted hwaiters
      omega
    refine .inl ⟨hpos, ?_⟩
    rw [h.acquire_free s task hpos hwaiters, hwaiters]

theorem givesBack_of_release (h : api.Lawful view) (hheld : task ∈ (view s).holders) :
    (view s).GivesBack task (view (api.release s task)) := by
  cases hwaiters : (view s).waiters with
  | nil =>
      rw [h.release_idle s task hheld hwaiters]
      exact .idle hwaiters
  | cons first rest =>
      rw [h.release_fifo s task first rest hheld hwaiters]
      exact .handed hwaiters

theorem cancel_cases (h : api.Lawful view) (hasked : (view s).Asked task) :
    (view s).Leaves task (view (api.cancel s task)) ∨
      (task ∈ (view s).holders ∧ (view s).GivesBack task (view (api.cancel s task))) := by
  by_cases hheld : task ∈ (view s).holders
  · refine .inr ⟨hheld, ?_⟩
    rw [h.cancel_granted s task hheld]
    exact h.givesBack_of_release hheld
  · have hwaits := hasked.resolve_left hheld
    exact .inl ⟨hwaits, h.cancel_waiting s task hwaits hheld⟩

end SemaphoreApi.Lawful

namespace SemaphoreView

def giveBack (v : SemaphoreView τ) (task : τ) : SemaphoreView τ :=
  match v.waiters with
  | [] => ⟨v.permits + 1, v.holders.erase task, []⟩
  | first :: rest => ⟨v.permits, insert first (v.holders.erase task), rest⟩

/-- The implementation that is its own view. -/
def api (τ : Type) [DecidableEq τ] : SemaphoreApi (SemaphoreView τ) τ where
  new n := ⟨n, ∅, []⟩
  tryAcquire v task :=
    if v.permits = 0 then none
    else some ⟨v.permits - 1, insert task v.holders, v.waiters⟩
  acquire v task :=
    if v.permits = 0 then ⟨0, v.holders, v.waiters ++ [task]⟩
    else ⟨v.permits - 1, insert task v.holders, v.waiters⟩
  granted v task := decide (task ∈ v.holders)
  release v task := v.giveBack task
  cancel v task :=
    if task ∈ v.holders then v.giveBack task
    else ⟨v.permits, v.holders, v.waiters.erase task⟩

theorem lawful_api (τ : Type) [DecidableEq τ] : (api τ).Lawful id where
  new _ := rfl
  tryAcquire_free v task hpos := ⟨_, if_neg (Nat.pos_iff_ne_zero.mp hpos), rfl⟩
  tryAcquire_exhausted v task hnone := if_pos hnone
  acquire_free v task hpos hwaiters := by
    have htaken : (api τ).acquire v task = _ := if_neg (Nat.pos_iff_ne_zero.mp hpos)
    rw [← hwaiters]
    exact htaken
  acquire_exhausted v task hnone := if_pos hnone
  granted_iff v task := decide_eq_true_iff
  release_idle v task _ hwaiters := by
    change v.waiters = [] at hwaiters
    change v.giveBack task = _
    rw [giveBack, hwaiters]
    rfl
  release_fifo v task first rest _ hwaiters := by
    change v.waiters = first :: rest at hwaiters
    change v.giveBack task = _
    rw [giveBack, hwaiters]
    rfl
  cancel_waiting v task _ hout := if_neg hout
  cancel_granted v task hheld := if_pos hheld

end SemaphoreView

end TrojanServer
