import TrojanServer.IndexedList
import TrojanServer.ServerLoop

namespace TrojanServer.ServerLoop

open TrojanServer.GrpcRun
open TrojanServer.IndexedList
open TrojanServer.StepMachine

/-- A permit is asked for while it is awaited, and then held. -/
def Phase.asks : Phase → Bool
  | .acquiring => true
  | phase => phase.holdsPermit

theorem Phase.asks_of_holdsPermit {phase : Phase} (h : phase.holdsPermit = true) :
    phase.asks = true := by
  cases phase <;> simp_all [Phase.asks, Phase.holdsPermit]

theorem Phase.eq_acquiring_of_asks {phase : Phase} (h : phase.asks = true)
    (hnone : phase.holdsPermit = false) : phase = .acquiring := by
  cases phase <;> simp_all [Phase.asks, Phase.holdsPermit]

theorem holdsPermit_acceptConnection (config : ServerConfig) :
    (acceptConnection config).holdsPermit = true := by
  unfold acceptConnection
  split <;> rfl

theorem holdsPermit_upgraded (config : ServerConfig) (pingPong : Bool) :
    (upgraded config pingPong).holdsPermit = true := by
  unfold upgraded
  split
  · rfl
  · rfl
  · split <;> rfl

section Accounts

variable {n : Nat}

/-- The books of the limiter are in order, and agree with what the tasks are doing. -/
structure Accounts (n : Nat) (v : SemaphoreView Nat) (tasks : List Phase) : Prop where
  valid : v.Valid n
  asked : ∀ task, v.Asked task ↔ (tasks[task]?).any Phase.asks = true
  waiting : ∀ task ∈ v.waiters, tasks[task]? = some .acquiring

namespace Accounts

variable {v v' : SemaphoreView Nat} {tasks : List Phase} {task : Nat} {phase : Phase}

/-- One task goes to another phase, and the limiter follows it. -/
theorem update (h : Accounts n v tasks) (hlt : task < tasks.length) (hvalid : v'.Valid n)
    (hself : v'.Asked task ↔ phase.asks = true)
    (hothers : ∀ other, other ≠ task → (v'.Asked other ↔ v.Asked other))
    (hwaiters : ∀ other ∈ v'.waiters, other ∈ v.waiters ∧ other ≠ task) :
    Accounts n v' (tasks.set task phase) where
  valid := hvalid
  asked := by
    intro other
    by_cases hother : other = task
    · subst hother
      rw [hself, List.getElem?_set_self hlt, Option.any_some]
    · rw [hothers other hother, h.asked, List.getElem?_set_ne (Ne.symm hother)]
  waiting := by
    intro other hwaits
    obtain ⟨hold, hother⟩ := hwaiters other hwaits
    rw [List.getElem?_set_ne (Ne.symm hother)]
    exact h.waiting other hold

theorem not_waiting (h : Accounts n v tasks) (htask : tasks[task]? = some phase)
    (hphase : phase ≠ .acquiring) : task ∉ v.waiters := by
  intro hwaits
  rw [h.waiting task hwaits] at htask
  exact hphase (Option.some.inj htask).symm

theorem asked_iff (h : Accounts n v tasks) (htask : tasks[task]? = some phase) :
    v.Asked task ↔ phase.asks = true := by
  rw [h.asked, htask, Option.any_some]

theorem mem_holders (h : Accounts n v tasks) (htask : tasks[task]? = some phase)
    (hholds : phase.holdsPermit = true) : task ∈ v.holders := by
  have hasked := (h.asked_iff htask).mpr (Phase.asks_of_holdsPermit hholds)
  refine hasked.resolve_right (h.not_waiting htask ?_)
  rintro rfl
  cases hholds

/-- A task that is not in line moves on with the permit it has, or with none. -/
theorem enter {phase' : Phase} (h : Accounts n v tasks) (htask : tasks[task]? = some phase)
    (hout : task ∉ v.waiters) (hsame : phase.asks = phase'.asks) :
    Accounts n v (tasks.set task phase') := by
  refine h.update (List.getElem?_eq_some_iff.mp htask).1 h.valid ?_ (fun _ _ => Iff.rfl) ?_
  · rw [h.asked_iff htask, hsame]
  · intro other hother
    exact ⟨hother, fun heq => hout (heq ▸ hother)⟩

/-- A task that asked for a permit goes on without one. -/
theorem giveUp (h : Accounts n v tasks) (htask : tasks[task]? = some phase)
    (hvalid : v'.Valid n) (hasked : ∀ other, v'.Asked other ↔ other ≠ task ∧ v.Asked other)
    (hwaiters : ∀ other ∈ v'.waiters, other ∈ v.waiters) {phase' : Phase}
    (hfree : phase'.asks = false) : Accounts n v' (tasks.set task phase') := by
  refine h.update (List.getElem?_eq_some_iff.mp htask).1 hvalid ?_ ?_ ?_
  · simp [hasked, hfree]
  · intro other hother
    simp [hasked, hother]
  · intro other hother
    exact ⟨hwaiters other hother, ((hasked other).mp (.inr hother)).1⟩

theorem giveBack (h : Accounts n v tasks) (htask : tasks[task]? = some phase)
    (hheld : task ∈ v.holders) (hback : v.GivesBack task v') {phase' : Phase}
    (hfree : phase'.asks = false) : Accounts n v' (tasks.set task phase') := by
  have hout : task ∉ v.waiters := fun hwaits => h.valid.apart task hwaits hheld
  exact h.giveUp htask (hback.valid h.valid hheld) (hback.asked hout)
    (fun _ => hback.waiters) hfree

theorem cancel (h : Accounts n v tasks) (htask : tasks[task]? = some phase)
    (hcancel : v.Leaves task v' ∨ (task ∈ v.holders ∧ v.GivesBack task v')) {phase' : Phase}
    (hfree : phase'.asks = false) : Accounts n v' (tasks.set task phase') := by
  rcases hcancel with hleaves | ⟨hheld, hback⟩
  · refine h.giveUp htask (hleaves.valid h.valid) (hleaves.asked h.valid) ?_ hfree
    obtain ⟨-, rfl⟩ := hleaves
    intro other hother
    exact List.mem_of_mem_erase hother
  · exact h.giveBack htask hheld hback hfree

theorem tryAcquire (h : Accounts n v tasks) (htask : tasks[task]? = some phase)
    (hphase : phase.asks = false) (htakes : v.Takes task v') {phase' : Phase}
    (hasks : phase'.asks = true) : Accounts n v' (tasks.set task phase') := by
  have hout : ¬ v.Asked task := by
    rw [h.asked_iff htask, hphase]
    exact Bool.false_ne_true
  obtain ⟨hholds, hwaits⟩ := not_or.mp hout
  refine h.update (List.getElem?_eq_some_iff.mp htask).1 (htakes.valid h.valid hholds) ?_ ?_ ?_
  · simp [htakes.asked, hasks]
  · intro other hother
    simp [htakes.asked, hother]
  · intro other hother
    obtain ⟨-, rfl⟩ := htakes
    exact ⟨hother, fun heq => hwaits (heq ▸ hother)⟩

/-- Appended at the end of the list, a task changes nothing for the others. -/
theorem append (h : Accounts n v tasks) (hvalid : v'.Valid n)
    (hself : v'.Asked tasks.length ↔ phase.asks = true)
    (hothers : ∀ other, other ≠ tasks.length → (v'.Asked other ↔ v.Asked other))
    (hwaiters : ∀ other ∈ v'.waiters,
      other ∈ v.waiters ∨ other = tasks.length ∧ phase = .acquiring) :
    Accounts n v' (tasks ++ [phase]) where
  valid := hvalid
  asked := by
    intro other
    by_cases hother : other = tasks.length
    · subst hother
      simp [hself]
    · rw [hothers other hother, h.asked]
      rcases Nat.lt_or_gt_of_ne hother with hlt | hgt
      · rw [List.getElem?_append_left hlt]
      · rw [List.getElem?_eq_none (by omega), List.getElem?_eq_none (by simp; omega)]
  waiting := by
    intro other hwaits
    rcases hwaiters other hwaits with hold | ⟨rfl, rfl⟩
    · have hphase := h.waiting other hold
      rwa [List.getElem?_append_left (List.getElem?_eq_some_iff.mp hphase).1]
    · simp

theorem not_asked_length (h : Accounts n v tasks) : ¬ v.Asked tasks.length := by
  simp [h.asked]

theorem spawn (h : Accounts n v tasks) (hfree : phase.asks = false) :
    Accounts n v (tasks ++ [phase]) :=
  h.append h.valid (by simp [h.not_asked_length, hfree]) (fun _ _ => Iff.rfl) fun _ => .inl

theorem accept (h : Accounts n v tasks)
    (hacquire : v.Takes tasks.length v' ∨ v.Queues tasks.length v') :
    Accounts n v' (tasks ++ [.acquiring]) := by
  have hfree := h.not_asked_length
  have hasked : ∀ other, v'.Asked other ↔ other = tasks.length ∨ v.Asked other := by
    rcases hacquire with htakes | hqueues
    · exact htakes.asked
    · exact hqueues.asked
  refine h.append ?_ ?_ ?_ ?_
  · rcases hacquire with htakes | hqueues
    · exact htakes.valid h.valid (not_or.mp hfree).1
    · exact hqueues.valid h.valid hfree
  · simp [hasked, Phase.asks]
  · intro other hother
    simp [hasked, hother]
  · intro other hother
    rcases hacquire with ⟨-, rfl⟩ | ⟨-, rfl⟩
    · exact .inl hother
    · simpa using hother

end Accounts

end Accounts

section Invariant

variable {σ : Type} {semaphore : SemaphoreApi σ Nat} {view : σ → SemaphoreView Nat}
  {config : ServerConfig}

/-- The limiter is there if there is a limit, its books are right, and the accept loop waits
for one permit at a time. -/
structure PermitInv (config : ServerConfig) (view : σ → SemaphoreView Nat) (s : Server σ) :
    Prop where
  limited : s.connLimiter.isSome = true ↔ 0 < config.maxConnections
  accounts : ∀ limiter, s.connLimiter = some limiter →
    Accounts config.maxConnections (view limiter) s.tasks
  single : ∀ task task' : Nat, s.tasks[task]? = some .acquiring →
    s.tasks[task']? = some .acquiring → task = task'

variable {s s' : Server σ}

theorem permitInv_start (hlawful : semaphore.Lawful view) (config : ServerConfig) :
    PermitInv config view (.start semaphore config) where
  limited := by
    unfold Server.start
    split <;> simp_all
  accounts := by
    intro limiter hlimiter
    unfold Server.start at hlimiter
    split at hlimiter
    · cases hlimiter
      rw [hlawful.new]
      exact ⟨⟨by simp, by simp, by simp, List.nodup_nil⟩,
        by simp [SemaphoreView.Asked, Server.start], by simp⟩
    · cases hlimiter
  single := by simp [Server.start]

theorem acquiring_of_set {tasks : List Phase} {task other : Nat} {phase : Phase}
    (hphase : phase ≠ .acquiring) (h : (tasks.set task phase)[other]? = some .acquiring) :
    tasks[other]? = some .acquiring := by
  rw [List.getElem?_set] at h
  split at h
  · split at h
    · exact absurd (Option.some.inj h) hphase
    · cases h
  · exact h

namespace PermitInv

variable {task : Nat} {phase phase' : Phase}

theorem single_set (h : PermitInv config view s) (hphase : phase ≠ .acquiring) (place : Nat) :
    ∀ task task' : Nat, (s.tasks.set place phase)[task]? = some .acquiring →
      (s.tasks.set place phase)[task']? = some .acquiring → task = task' := by
  intro task task' htask htask'
  exact h.single task task' (acquiring_of_set hphase htask) (acquiring_of_set hphase htask')

theorem enter (h : PermitInv config view s) (htask : s.tasks[task]? = some phase)
    (hphase : phase ≠ .acquiring) (hsame : phase.asks = phase'.asks)
    (hphase' : phase' ≠ .acquiring) : PermitInv config view (s.enter task phase') where
  limited := h.limited
  accounts := fun limiter hlimiter =>
    have haccounts := h.accounts limiter hlimiter
    haccounts.enter htask (haccounts.not_waiting htask hphase) hsame
  single := h.single_set hphase' task

theorem dropPermit (h : PermitInv config view s) (hlawful : semaphore.Lawful view)
    (htask : s.tasks[task]? = some phase) (hholds : phase.holdsPermit = true)
    (hfree : phase'.asks = false) :
    PermitInv config view (s.dropPermit semaphore task phase') where
  limited := by simpa [Server.dropPermit] using h.limited
  accounts := by
    intro limiter hlimiter
    obtain ⟨before, hbefore, rfl⟩ := Option.map_eq_some_iff.mp hlimiter
    have haccounts := h.accounts before hbefore
    have hheld := haccounts.mem_holders htask hholds
    exact haccounts.giveBack htask hheld (hlawful.givesBack_of_release hheld) hfree
  single := by
    refine h.single_set ?_ task
    rintro rfl
    cases hfree

theorem stopWaiting (h : PermitInv config view s) (hlawful : semaphore.Lawful view)
    (htask : s.tasks[task]? = some .acquiring) :
    PermitInv config view
      { connLimiter := s.connLimiter.map fun limiter => semaphore.cancel limiter task
        tasks := s.tasks.set task .ended
        accepting := false } where
  limited := by simpa using h.limited
  accounts := by
    intro limiter hlimiter
    obtain ⟨before, hbefore, rfl⟩ := Option.map_eq_some_iff.mp hlimiter
    have haccounts := h.accounts before hbefore
    exact haccounts.cancel htask
      (hlawful.cancel_cases ((haccounts.asked_iff htask).mpr rfl)) rfl
  single := h.single_set (by simp) task

theorem acquired (h : PermitInv config view s) (hlawful : semaphore.Lawful view)
    (htask : s.tasks[task]? = some .acquiring) (hpermit : s.permitted semaphore task = true)
    (hholds : phase.holdsPermit = true) : PermitInv config view (s.enter task phase) where
  limited := h.limited
  accounts := by
    intro limiter hlimiter
    have haccounts := h.accounts limiter hlimiter
    have hheld : task ∈ (view limiter).holders := by
      have hlimiter' : s.connLimiter = some limiter := hlimiter
      rw [← hlawful.granted_iff]
      simpa [Server.permitted, hlimiter'] using hpermit
    refine haccounts.enter htask ?_ (Phase.asks_of_holdsPermit hholds).symm
    exact fun hwaits => haccounts.valid.apart task hwaits hheld
  single := by
    refine h.single_set ?_ task
    rintro rfl
    cases hholds

theorem admitted {limiter limiter' : σ} {parent : Nat} (h : PermitInv config view s)
    (hlawful : semaphore.Lawful view) (htask : s.tasks[task]? = some (.stream parent))
    (hlimiter : s.connLimiter = some limiter)
    (htry : semaphore.tryAcquire limiter task = some limiter') :
    PermitInv config view
      ({ s with connLimiter := some limiter' }.enter task (.streamSession parent)) where
  limited := by
    have hlimited := h.limited
    rw [hlimiter] at hlimited
    simpa [Server.enter] using hlimited
  accounts := by
    intro limiter₁ hlimiter₁
    cases hlimiter₁
    exact (h.accounts limiter hlimiter).tryAcquire htask rfl
      (hlawful.takes_of_tryAcquire htry) rfl
  single := h.single_set (by simp) task

theorem spawn (h : PermitInv config view s) (hfree : phase.asks = false) :
    PermitInv config view (s.spawn phase) where
  limited := h.limited
  accounts := fun limiter hlimiter => (h.accounts limiter hlimiter).spawn hfree
  single := by
    have hold {task : Nat} (htask : (s.spawn phase).tasks[task]? = some .acquiring) :
        s.tasks[task]? = some .acquiring := by
      refine (getElem?_snoc.mp htask).resolve_right ?_
      rintro ⟨-, rfl⟩
      cases hfree
    exact fun task task' htask htask' => h.single task task' (hold htask) (hold htask')

theorem accept (h : PermitInv config view s) (hlawful : semaphore.Lawful view)
    (hidle : .acquiring ∉ s.tasks) : PermitInv config view (s.accept semaphore) where
  limited := by simpa [Server.accept] using h.limited
  accounts := by
    intro limiter hlimiter
    obtain ⟨before, hbefore, rfl⟩ := Option.map_eq_some_iff.mp hlimiter
    have haccounts := h.accounts before hbefore
    exact haccounts.accept (hlawful.acquire_cases haccounts.valid)
  single := by
    have hlast {task : Nat} (htask : (s.accept semaphore).tasks[task]? = some .acquiring) :
        task = s.tasks.length := by
      refine ((getElem?_snoc.mp htask).resolve_left fun hold => ?_).1
      exact hidle (List.mem_of_getElem? hold)
    exact fun task task' htask htask' => (hlast htask).trans (hlast htask').symm

theorem countOut (h : PermitInv config view s) (parent time : Nat) :
    PermitInv config view (s.countOut parent time) := by
  unfold Server.countOut
  split
  · rename_i conn loop hparent
    split
    · exact h.enter hparent (by simp) rfl (by simp)
    · exact h
  · exact h

end PermitInv

theorem permitInv_step {action : Action} {o : Outcome} (hlawful : semaphore.Lawful view)
    (h : PermitInv config view s) (hstep : step semaphore config s action = some (s', o)) :
    PermitInv config view s' := by
  have hne {phase : Phase} (hholds : phase.holdsPermit = true) : phase ≠ .acquiring := by
    rintro rfl
    cases hholds
  cases stepCase_of_step hstep with
  | accepted hidle => exact h.accept hlawful hidle
  | acceptFailed => exact h
  | stoppedIdle => exact ⟨h.limited, h.accounts, h.single⟩
  | stoppedWaiting htask => exact h.stopWaiting hlawful htask
  | acquired htask hpermit hphase =>
      refine h.acquired hlawful htask hpermit ?_
      rcases hphase with rfl | rfl
      · rfl
      · exact holdsPermit_acceptConnection config
  | secured htask =>
      have hholds := holdsPermit_acceptConnection config
      exact h.enter htask (by simp) (Phase.asks_of_holdsPermit hholds).symm (hne hholds)
  | upgraded htask =>
      rename_i pingPong
      have hholds := holdsPermit_upgraded config pingPong
      exact h.enter htask (by simp) (Phase.asks_of_holdsPermit hholds).symm (hne hholds)
  | finished htask hphase _ =>
      refine h.dropPermit hlawful htask ?_ rfl
      simp only [List.mem_cons, List.not_mem_nil, or_false] at hphase
      rcases hphase with rfl | rfl | rfl | rfl <;> rfl
  | spawned htask =>
      refine PermitInv.spawn ?_ rfl
      exact h.enter htask (by simp) rfl (by simp)
  | unlimited htask hnone =>
      refine ⟨h.limited, ?_, h.single_set (by simp) _⟩
      intro limiter hlimiter
      cases hnone.symm.trans hlimiter
  | admitted htask hlimiter htry => exact h.admitted hlawful htask hlimiter htry
  | polled htask | left htask | refused htask | abandoned htask =>
      exact h.enter htask (by simp) rfl (by simp)
  | dropped htask _ => exact h.dropPermit hlawful htask rfl rfl
  | counted htask =>
      refine PermitInv.countOut ?_ _ _
      exact h.enter htask (by simp) rfl (by simp)

theorem permitInv_run {actions : List Action} {trace : History}
    (hlawful : semaphore.Lawful view)
    (hrun : runServer semaphore config actions = some (s, trace)) :
    PermitInv config view s :=
  run_induction (P := fun _ s => PermitInv config view s) hrun (permitInv_start hlawful config)
    fun _ _ _ _ _ h hstep => permitInv_step hlawful h hstep

end Invariant

section Limit

variable {σ : Type} {semaphore : SemaphoreApi σ Nat} {view : σ → SemaphoreView Nat}
  {config : ServerConfig} {s : Server σ} {limiter : σ}

theorem mem_holders_of_holdsPermit {n : Nat} {v : SemaphoreView Nat} {tasks : List Phase}
    (h : Accounts n v tasks) {task : Nat}
    (hholds : (tasks[task]?).any Phase.holdsPermit = true) : task ∈ v.holders := by
  obtain ⟨phase, htask, hphase⟩ := Option.any_eq_true _ _ |>.mp hholds
  exact h.mem_holders htask hphase

/-- While the accept loop waits, the permits are with the tasks that run. -/
theorem mem_holders_iff_of_waiting (h : PermitInv config view s)
    (hlimiter : s.connLimiter = some limiter) {waiter : Nat}
    (hwaits : waiter ∈ (view limiter).waiters) (task : Nat) :
    task ∈ (view limiter).holders ↔ (s.tasks[task]?).any Phase.holdsPermit = true := by
  have haccounts := h.accounts limiter hlimiter
  refine ⟨fun hheld => ?_, mem_holders_of_holdsPermit haccounts⟩
  obtain ⟨phase, htask, hasks⟩ :=
    Option.any_eq_true _ _ |>.mp ((haccounts.asked task).mp (.inl hheld))
  rw [htask, Option.any_some]
  by_contra hnone
  obtain rfl := Phase.eq_acquiring_of_asks hasks (Bool.eq_false_iff.mpr hnone)
  obtain rfl := h.single task waiter htask (haccounts.waiting waiter hwaits)
  exact haccounts.valid.apart task hwaits hheld

theorem permits_add_asks (h : PermitInv config view s) (hlimiter : s.connLimiter = some limiter) :
    (view limiter).permits + s.tasks.countP Phase.asks =
      config.maxConnections + (view limiter).waiters.length := by
  have haccounts := h.accounts limiter hlimiter
  have hasks := card_eq_countP fun task =>
    SemaphoreView.mem_holders_union_waiters.trans (haccounts.asked task)
  have hconserved := haccounts.valid.conserved
  rw [haccounts.valid.card_holders_union_waiters] at hasks
  omega

theorem length_waiters_le (h : PermitInv config view s)
    (hlimiter : s.connLimiter = some limiter) : (view limiter).waiters.length ≤ 1 := by
  have hwaiting := (h.accounts limiter hlimiter).waiting
  have hdistinct := (h.accounts limiter hlimiter).valid.distinct
  generalize (view limiter).waiters = waiters at hwaiting hdistinct
  match waiters with
  | [] => simp
  | [_] => simp
  | first :: second :: rest =>
      have heq := h.single first second (hwaiting first (by simp)) (hwaiting second (by simp))
      simp [heq] at hdistinct

/-- Permits are neither lost nor made up: those that are free and those that tasks hold or
were handed make up the limit, whatever the tasks did, and once all tasks have ended every
permit is back. -/
theorem permits_conserved (hlawful : semaphore.Lawful view) {actions : List Action}
    {trace : History}
    (hrun : runServer semaphore config actions = some (s, trace))
    (hlimit : 0 < config.maxConnections) :
    ∃ limiter, s.connLimiter = some limiter ∧
      s.tasks.countP Phase.holdsPermit ≤ config.maxConnections ∧
      (view limiter).permits + s.tasks.countP Phase.asks =
        config.maxConnections + (view limiter).waiters.length ∧
      (view limiter).waiters.length ≤ 1 ∧
      ((∀ phase ∈ s.tasks, phase = .ended) →
        (view limiter).permits = config.maxConnections) := by
  have hinv := permitInv_run hlawful hrun
  obtain ⟨limiter, hlimiter⟩ := Option.isSome_iff_exists.mp (hinv.limited.mpr hlimit)
  have haccounts := hinv.accounts limiter hlimiter
  have hsum := permits_add_asks hinv hlimiter
  refine ⟨limiter, hlimiter, ?_, hsum, length_waiters_le hinv hlimiter, ?_⟩
  · exact (countP_le_card fun task => mem_holders_of_holdsPermit haccounts).trans
      haccounts.valid.card_holders_le
  · intro hended
    have hasks : s.tasks.countP Phase.asks = 0 := by
      refine List.countP_eq_zero.mpr fun phase hphase => ?_
      simp [hended phase hphase, Phase.asks, Phase.holdsPermit]
    have hnone : (view limiter).waiters = [] := by
      refine List.eq_nil_iff_forall_not_mem.mpr fun waiter hwaits => ?_
      have hphase := List.mem_of_getElem? (haccounts.waiting waiter hwaits)
      simpa using hended _ hphase
    simpa [hasks, hnone] using hsum

def oneConnection : ServerConfig :=
  { enableWs := false, enableGrpc := false, grpcServiceName := "", cert := none, key := none,
    idleTimeout := 300, maxConnections := 1 }

/-- The permit of the first session is handed to the second, and the accept loop is dropped
while it waits for a third. -/
theorem permits_conserved_handover :
    ∃ s trace, runServer (SemaphoreView.api Nat) oneConnection
        [.accept, .acquired 0, .accept, .sessionEnd 0, .acquired 1, .accept, .stop,
          .sessionEnd 1] = some (s, trace) ∧
      ∃ limiter, s.connLimiter = some limiter ∧ limiter.permits = 1 := by
  have hrun : runServer (SemaphoreView.api Nat) oneConnection
      [.accept, .acquired 0, .accept, .sessionEnd 0, .acquired 1, .accept, .stop,
        .sessionEnd 1] = some (_, _) := rfl
  obtain ⟨limiter, hlimiter, -, -, -, hback⟩ :=
    permits_conserved (SemaphoreView.lawful_api Nat) hrun (by decide)
  exact ⟨_, _, hrun, limiter, hlimiter, hback (by decide)⟩

/-- A stream is refused only when no permit is free, and the accept loop is held up only when
as many tasks as the limit allows are running. -/
theorem held_up_only_at_capacity (hlawful : semaphore.Lawful view) {actions : List Action}
    {trace : History}
    (hrun : runServer semaphore config actions = some (s, trace)) :
    (∀ task s', step semaphore config s (.streamPoll task) = some (s', .refused) →
      0 < config.maxConnections ∧ config.maxConnections ≤ s.tasks.countP Phase.asks) ∧
    (∀ task : Nat, s.tasks[task]? = some .acquiring →
      step semaphore config s (.acquired task) = none →
        0 < config.maxConnections ∧
          s.tasks.countP Phase.holdsPermit = config.maxConnections) := by
  have hinv := permitInv_run hlawful hrun
  refine ⟨?_, ?_⟩
  · intro task s' hstep
    generalize ho : Outcome.refused = o at hstep
    cases stepCase_of_step hstep with
    | refused htask hlimiter htry =>
        have hnone := hlawful.exhausted_of_tryAcquire htry
        have hsum := permits_add_asks hinv hlimiter
        exact ⟨hinv.limited.mp (by simp [hlimiter]), by omega⟩
    | _ => cases ho
  · intro task htask hblocked
    have hnot : s.permitted semaphore task = false := by
      by_contra hpermit
      rw [step, if_pos ⟨htask, by simpa using hpermit⟩] at hblocked
      split at hblocked <;> cases hblocked
    unfold Server.permitted at hnot
    split at hnot
    · rename_i limiter hlimiter
      have haccounts := hinv.accounts limiter hlimiter
      have hwaits : task ∈ (view limiter).waiters := by
        refine ((haccounts.asked_iff htask).mpr rfl).resolve_left ?_
        rw [← hlawful.granted_iff, hnot]
        exact Bool.false_ne_true
      have hnone := haccounts.valid.exhausted (List.ne_nil_of_mem hwaits)
      have hholders := card_eq_countP (mem_holders_iff_of_waiting hinv hlimiter hwaits)
      exact ⟨hinv.limited.mp (by simp [hlimiter]),
        hholders ▸ haccounts.valid.card_holders_eq hnone⟩
    · cases hnot

theorem held_up_by_one_session :
    ∃ s trace, runServer (SemaphoreView.api Nat) oneConnection
        [.accept, .acquired 0, .accept] = some (s, trace) ∧
      step (SemaphoreView.api Nat) oneConnection s (.acquired 1) = none ∧
      s.tasks.countP Phase.holdsPermit = 1 := by
  have hrun : runServer (SemaphoreView.api Nat) oneConnection
      [.accept, .acquired 0, .accept] = some (_, _) := rfl
  exact ⟨_, _, hrun, rfl,
    ((held_up_only_at_capacity (SemaphoreView.lawful_api Nat) hrun).2 1 rfl rfl).2⟩

end Limit

end TrojanServer.ServerLoop
