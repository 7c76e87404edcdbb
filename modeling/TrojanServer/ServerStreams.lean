import TrojanServer.ServerPermits

namespace TrojanServer.ServerLoop

open TrojanServer.GrpcRun
open TrojanServer.IndexedList
open TrojanServer.StepMachine

variable {σ : Type} {semaphore : SemaphoreApi σ Nat} {config : ServerConfig}

/-- A task that may have spawned streams. -/
def Phase.hosts : Phase → Bool
  | .grpc _ _ | .closing | .ended => true
  | _ => false

@[simp] theorem Phase.isStreamOf_ended (parent : Nat) : Phase.ended.isStreamOf parent = false :=
  rfl

section Loop

variable {conn : GrpcConnection} {loop loop' : Loop} {time : Nat} {event : LoopEvent}

theorem loop_of_polled {outcome : GrpcRun.Outcome} (hevent : event ≠ .streamEnd)
    (hloop : conn.step loop (time, event) = some (loop', outcome))
    (hstay : ∀ result, outcome ≠ .leave result) (hspawn : outcome ≠ .spawn) :
    loop'.activeStreams = loop.activeStreams ∧ loop'.left = false := by
  obtain ⟨hrunning, hcase⟩ := loopCase_of_step hloop
  cases hcase with
  | accepted => exact absurd rfl hspawn
  | ended => exact absurd rfl hevent
  | failed => exact absurd rfl (hstay _)
  | closed => exact absurd rfl (hstay _)
  | dead => exact absurd rfl (hstay _)
  | elapsed => exact absurd rfl (hstay _)
  | _ => exact ⟨rfl, hrunning⟩

theorem loop_of_spawned (hloop : conn.step loop (time, event) = some (loop', .spawn)) :
    loop'.activeStreams = loop.activeStreams + 1 ∧ loop'.left = false := by
  obtain ⟨hrunning, hcase⟩ := loopCase_of_step hloop
  cases hcase with
  | accepted => exact ⟨rfl, hrunning⟩

theorem step_streamEnd (hrunning : loop.left = false) (hactive : loop.activeStreams ≠ 0) :
    conn.step loop (time, .streamEnd) =
      some ({ loop with activeStreams := loop.activeStreams - 1 }, .proceed) := by
  simp [GrpcConnection.step, hrunning, hactive]

end Loop

section Invariant

variable {tasks : List Phase} {task : Nat} {phase phase' : Phase}

/-- A stream belongs to a connection, which may be gone. -/
def Hosted (tasks : List Phase) : Prop :=
  ∀ (task parent : Nat) (phase : Phase), tasks[task]? = some phase →
    phase.isStreamOf parent = true → (tasks[parent]?).any Phase.hosts = true

theorem Hosted.countP_eq_zero (h : Hosted tasks) (htask : tasks[task]? = some phase)
    (hphase : phase.hosts = false) : tasks.countP (Phase.isStreamOf task) = 0 := by
  refine List.countP_eq_zero.mpr fun stream hstream hof => ?_
  obtain ⟨place, hplace⟩ := List.mem_iff_getElem?.mp hstream
  have hhost := h place task stream hplace hof
  rw [htask, Option.any_some, hphase] at hhost
  cases hhost

theorem Hosted.set (h : Hosted tasks) (htask : tasks[task]? = some phase)
    (hsame : ∀ parent, phase'.isStreamOf parent = true → phase.isStreamOf parent = true)
    (hhosts : phase.hosts = true → phase'.hosts = true) : Hosted (tasks.set task phase') := by
  have hlt := (List.getElem?_eq_some_iff.mp htask).1
  intro other parent stream hother hof
  have hhost : (tasks[parent]?).any Phase.hosts = true := by
    by_cases heq : task = other
    · subst heq
      rw [List.getElem?_set_self hlt] at hother
      cases hother
      exact h task parent phase htask (hsame parent hof)
    · rw [List.getElem?_set_ne heq] at hother
      exact h other parent stream hother hof
  by_cases hparent : task = parent
  · subst hparent
    rw [htask, Option.any_some] at hhost
    rw [List.getElem?_set_self hlt, Option.any_some]
    exact hhosts hhost
  · rwa [List.getElem?_set_ne hparent]

theorem Hosted.append (h : Hosted tasks) (hhosted : ∀ parent, phase.isStreamOf parent = true →
    (tasks[parent]?).any Phase.hosts = true) : Hosted (tasks ++ [phase]) := by
  intro other parent stream hother hof
  have hhost : (tasks[parent]?).any Phase.hosts = true := by
    rcases getElem?_snoc.mp hother with hother | ⟨-, rfl⟩
    · exact h other parent stream hother hof
    · exact hhosted parent hof
  obtain ⟨host, hparent, -⟩ := Option.any_eq_true _ _ |>.mp hhost
  rwa [List.getElem?_append_left (List.getElem?_eq_some_iff.mp hparent).1]

/-- While a connection is in its loop, it counts the tasks of its streams. -/
structure StreamInv (tasks : List Phase) : Prop where
  hosted : Hosted tasks
  counted : ∀ (task : Nat) (conn : GrpcConnection) (loop : Loop),
    tasks[task]? = some (.grpc conn loop) →
      loop.activeStreams = tasks.countP (Phase.isStreamOf task) ∧ loop.left = false

namespace StreamInv

/-- A task goes to another phase, and stays the stream that it was, if it was one. -/
theorem set (h : StreamInv tasks) (htask : tasks[task]? = some phase)
    (hsame : ∀ parent, phase'.isStreamOf parent = phase.isStreamOf parent)
    (hhosts : phase.hosts = true → phase'.hosts = true)
    (hcount : ∀ conn loop, phase' = .grpc conn loop →
      loop.activeStreams = tasks.countP (Phase.isStreamOf task) ∧ loop.left = false) :
    StreamInv (tasks.set task phase') where
  hosted := h.hosted.set htask (fun parent => by simp [hsame parent]) hhosts
  counted := by
    intro other conn loop hother
    have hsum := countP_set_add (p := Phase.isStreamOf other) (b := phase') htask
    rw [hsame other] at hsum
    rw [Nat.add_right_cancel hsum]
    by_cases heq : task = other
    · subst heq
      rw [List.getElem?_set_self (List.getElem?_eq_some_iff.mp htask).1] at hother
      exact hcount conn loop (Option.some.inj hother)
    · rw [List.getElem?_set_ne heq] at hother
      exact h.counted other conn loop hother

theorem enter (h : StreamInv tasks) (htask : tasks[task]? = some phase)
    (hsame : ∀ parent, phase'.isStreamOf parent = phase.isStreamOf parent)
    (hhosts : phase.hosts = true → phase'.hosts = true)
    (hplain : ∀ conn loop, phase' ≠ .grpc conn loop) : StreamInv (tasks.set task phase') :=
  h.set htask hsame hhosts fun conn loop heq => absurd heq (hplain conn loop)

theorem accept (h : StreamInv tasks) : StreamInv (tasks ++ [.acquiring]) where
  hosted := h.hosted.append (by simp [Phase.isStreamOf])
  counted := by
    intro task conn loop htask
    have hold := (getElem?_snoc.mp htask).resolve_right (by simp)
    simpa [Phase.isStreamOf] using h.counted task conn loop hold

theorem spawn {conn : GrpcConnection} {loop loop' : Loop} (h : StreamInv tasks)
    (htask : tasks[task]? = some (.grpc conn loop))
    (hactive : loop'.activeStreams = loop.activeStreams + 1) (hrunning : loop'.left = false) :
    StreamInv (tasks.set task (.grpc conn loop') ++ [.stream task]) where
  hosted := by
    have hlt := (List.getElem?_eq_some_iff.mp htask).1
    refine (h.hosted.set htask (by simp [Phase.isStreamOf]) fun _ => rfl).append ?_
    intro parent hparent
    obtain rfl : task = parent := by simpa [Phase.isStreamOf] using hparent
    simp [List.getElem?_set_self hlt, Phase.hosts]
  counted := by
    intro other conn' loop₁ hother
    have hsum := countP_set_add (p := Phase.isStreamOf other) (b := .grpc conn loop') htask
    have hold := (getElem?_snoc.mp hother).resolve_right (by simp)
    rw [List.countP_append, Nat.add_right_cancel hsum]
    by_cases heq : task = other
    · subst heq
      rw [List.getElem?_set_self (List.getElem?_eq_some_iff.mp htask).1] at hold
      cases hold
      simp [hactive, hrunning, (h.counted task conn loop htask).1, Phase.isStreamOf]
    · rw [List.getElem?_set_ne heq] at hold
      simpa [Phase.isStreamOf, heq] using h.counted other conn' loop₁ hold

/-- The last thing a stream does is to count itself out. -/
theorem countOut {parent time : Nat} {s : Server σ} (h : StreamInv s.tasks)
    (htask : s.tasks[task]? = some (.streamClosing parent)) :
    StreamInv ((s.enter task .ended).countOut parent time).tasks := by
  have hhosted : Hosted (s.tasks.set task .ended) :=
    h.hosted.set htask (by simp [Phase.isStreamOf]) fun _ => rfl
  have hkept (other : Nat) (conn : GrpcConnection) (loop : Loop)
      (hother : (s.tasks.set task .ended)[other]? = some (.grpc conn loop)) :
      s.tasks[other]? = some (.grpc conn loop) := by
    rw [List.getElem?_set] at hother
    split at hother
    · simp at hother
    · exact hother
  have hothers (other : Nat) (hne : other ≠ parent) (conn : GrpcConnection) (loop : Loop)
      (hother : (s.tasks.set task .ended)[other]? = some (.grpc conn loop)) :
      loop.activeStreams = (s.tasks.set task .ended).countP (Phase.isStreamOf other) ∧
        loop.left = false := by
    have hsum := countP_set_add (p := Phase.isStreamOf other) (b := .ended) htask
    simp only [Phase.isStreamOf, hne.symm, decide_false, Bool.toNat_false, Nat.add_zero] at hsum
    rw [hsum]
    exact h.counted other conn loop (hkept other conn loop hother)
  unfold Server.countOut
  split
  · rename_i conn loop hparent
    have hparent : (s.tasks.set task .ended)[parent]? = some (.grpc conn loop) := hparent
    obtain ⟨hcount, hrunning⟩ := h.counted parent conn loop (hkept parent conn loop hparent)
    have hsum := countP_set_add (p := Phase.isStreamOf parent) (b := .ended) htask
    simp only [Phase.isStreamOf, decide_true, Bool.toNat_true, Bool.toNat_false,
      Nat.add_zero] at hsum
    rw [step_streamEnd hrunning (by omega)]
    refine ⟨hhosted.set hparent (by simp [Phase.isStreamOf]) fun _ => rfl, ?_⟩
    intro other conn' loop' hother
    have hsame := countP_set_add (p := Phase.isStreamOf other)
      (b := .grpc conn { loop with activeStreams := loop.activeStreams - 1 }) hparent
    simp only [Server.enter] at hother ⊢
    rw [Nat.add_right_cancel hsame]
    by_cases heq : parent = other
    · subst heq
      rw [List.getElem?_set_self (List.getElem?_eq_some_iff.mp hparent).1] at hother
      cases hother
      exact ⟨by simp only; omega, hrunning⟩
    · rw [List.getElem?_set_ne heq] at hother
      exact hothers other (Ne.symm heq) conn' loop' hother
  · rename_i hnone
    refine ⟨hhosted, fun other conn loop hother => hothers other ?_ conn loop hother⟩
    rintro rfl
    exact hnone conn loop hother

end StreamInv

theorem acceptConnection_cases (config : ServerConfig) :
    acceptConnection config = .session ∨ acceptConnection config = .upgrade := by
  unfold acceptConnection
  split
  · exact .inl rfl
  · exact .inr rfl
  · exact .inr rfl

theorem upgraded_cases (config : ServerConfig) (pingPong : Bool) :
    upgraded config pingPong = .session ∨ upgraded config pingPong = .closing ∨
      ∃ conn, upgraded config pingPong = .grpc conn (.start pingPong) := by
  unfold upgraded
  split
  · exact .inl rfl
  · exact .inl rfl
  · split
    · rename_i conn _
      exact .inr (.inr ⟨conn, rfl⟩)
    · exact .inr (.inl rfl)

theorem streamInv_step {s s' : Server σ} {action : Action} {o : Outcome}
    (h : StreamInv s.tasks) (hstep : step semaphore config s action = some (s', o)) :
    StreamInv s'.tasks := by
  cases stepCase_of_step hstep with
  | accepted hidle => exact h.accept
  | acceptFailed => exact h
  | stoppedIdle => exact h
  | stoppedWaiting htask =>
      exact h.enter htask (fun _ => rfl) (by simp [Phase.hosts]) (by simp)
  | acquired htask hpermit hphase =>
      rcases hphase with rfl | rfl
      · exact h.enter htask (fun _ => rfl) (by simp [Phase.hosts]) (by simp)
      · rcases acceptConnection_cases config with heq | heq
        all_goals
          rw [heq]
          exact h.enter htask (fun _ => rfl) (by simp [Phase.hosts]) (by simp)
  | secured htask =>
      rcases acceptConnection_cases config with heq | heq
      all_goals
        rw [heq]
        exact h.enter htask (fun _ => rfl) (by simp [Phase.hosts]) (by simp)
  | upgraded htask =>
      rename_i task pingPong
      rcases upgraded_cases config pingPong with heq | heq | ⟨conn, heq⟩
      · rw [heq]
        exact h.enter htask (fun _ => rfl) (by simp [Phase.hosts]) (by simp)
      · rw [heq]
        exact h.enter htask (fun _ => rfl) (by simp [Phase.hosts]) (by simp)
      · rw [heq]
        refine h.set htask (fun _ => rfl) (by simp [Phase.hosts]) ?_
        rintro conn' loop ⟨⟩
        exact ⟨(h.hosted.countP_eq_zero htask rfl).symm, rfl⟩
  | finished htask hphase _ =>
      refine h.enter htask ?_ (fun _ => rfl) (by simp)
      simp only [List.mem_cons, List.not_mem_nil, or_false] at hphase
      rcases hphase with rfl | rfl | rfl | rfl <;> exact fun _ => rfl
  | polled htask hevent hloop hstay hspawn =>
      obtain ⟨hactive, hrunning⟩ := loop_of_polled hevent hloop hstay hspawn
      refine h.set htask (fun _ => rfl) (fun _ => rfl) ?_
      rintro conn' loop₁ ⟨⟩
      exact ⟨hactive.trans (h.counted _ _ _ htask).1, hrunning⟩
  | spawned htask hloop =>
      obtain ⟨hactive, hrunning⟩ := loop_of_spawned hloop
      exact h.spawn htask hactive hrunning
  | left htask => exact h.enter htask (fun _ => rfl) (fun _ => rfl) (by simp)
  | unlimited htask => exact h.enter htask (fun _ => rfl) (by simp [Phase.hosts]) (by simp)
  | admitted htask => exact h.enter htask (fun _ => rfl) (by simp [Phase.hosts]) (by simp)
  | refused htask => exact h.enter htask (fun _ => rfl) (by simp [Phase.hosts]) (by simp)
  | abandoned htask => exact h.enter htask (fun _ => rfl) (by simp [Phase.hosts]) (by simp)
  | dropped htask _ => exact h.enter htask (fun _ => rfl) (by simp [Phase.hosts]) (by simp)
  | counted htask => exact h.countOut htask

theorem streamInv_run {s : Server σ} {actions : List Action} {trace : History}
    (hrun : runServer semaphore config actions = some (s, trace)) : StreamInv s.tasks := by
  refine run_induction (P := fun _ s => StreamInv s.tasks) hrun ?_
    fun _ _ _ _ _ h hstep => streamInv_step h hstep
  exact ⟨by simp [Hosted, Server.start], by simp [Server.start]⟩

end Invariant

section Idle

variable {s s' : Server σ} {actions : List Action} {trace : History}

theorem no_stream_of_idle {conn : GrpcConnection} {loop loop' : Loop} {time : Nat}
    {outcome : GrpcRun.Outcome} (hloop : conn.step loop (time, .idleTick) = some (loop', outcome))
    (hcloses : outcome = .gracefulShutdown ∨ ∃ result, outcome = .leave result) :
    loop.activeStreams = 0 := by
  obtain ⟨-, hcase⟩ := loopCase_of_step hloop
  cases hcase with
  | drain hnone => exact hnone
  | elapsed hnone => exact hnone
  | _ => simp at hcloses

/-- The counter that a connection goes by is the number of its streams that are not through,
so its idle timer never drains or closes it under one of them. -/
theorem active_streams_exact (hrun : runServer semaphore config actions = some (s, trace))
    {task : Nat} {conn : GrpcConnection} {loop : Loop}
    (htask : s.tasks[task]? = some (.grpc conn loop)) :
    loop.activeStreams = s.tasks.countP (Phase.isStreamOf task) ∧
      ∀ time s' outcome,
        step semaphore config s (.h2 task time .idleTick) = some (s', .connection outcome) →
        (outcome = .gracefulShutdown ∨ ∃ result, outcome = .leave result) →
          ∀ phase ∈ s.tasks, phase.isStreamOf task = false := by
  have hcount := ((streamInv_run hrun).counted task conn loop htask).1
  refine ⟨hcount, ?_⟩
  intro time s' outcome hstep hcloses phase hphase
  have hnone : loop.activeStreams = 0 := by
    simp only [step, htask] at hstep
    unfold Server.runH2 at hstep
    rw [if_neg (by simp)] at hstep
    obtain ⟨⟨loop', o⟩, hloop, heq⟩ := Option.map_eq_some_iff.mp hstep
    refine no_stream_of_idle hloop ?_
    cases o <;> simp_all
  exact Bool.eq_false_iff.mpr (List.countP_eq_zero.mp (hcount ▸ hnone) phase hphase)

def twoConnections : ServerConfig :=
  { enableWs := false, enableGrpc := true, grpcServiceName := "s", cert := none, key := none,
    idleTimeout := 300, maxConnections := 2 }

theorem active_streams_of_two :
    ∃ s trace, runServer (SemaphoreView.api Nat) twoConnections
        [.accept, .acquired 0, .upgrade 0 (some false), .h2 0 1 (.request "POST" "/s/Tun"),
          .streamPoll 1, .h2 0 2 (.request "POST" "/s/TunMulti")] = some (s, trace) ∧
      ∃ conn loop, s.tasks[0]? = some (.grpc conn loop) ∧
        loop.activeStreams = s.tasks.countP (Phase.isStreamOf 0) := by
  have hrun : runServer (SemaphoreView.api Nat) twoConnections
      [.accept, .acquired 0, .upgrade 0 (some false), .h2 0 1 (.request "POST" "/s/Tun"),
        .streamPoll 1, .h2 0 2 (.request "POST" "/s/TunMulti")] = some (_, _) := rfl
  exact ⟨_, _, hrun, _, _, rfl, (active_streams_exact hrun rfl).1⟩

end Idle

section Drain

variable {s s' : Server σ} {action : Action} {o : Outcome} {tasks : List Phase}
  {parent task : Nat} {phase phase' : Phase}

/-- How many steps of its own a stream of the connection has at most before it ends. -/
def Phase.stepsLeft (parent : Nat) : Phase → Nat
  | .stream p => if p = parent then 3 else 0
  | .streamSession p => if p = parent then 2 else 0
  | .streamClosing p => if p = parent then 1 else 0
  | _ => 0

def streamsLeft (parent : Nat) (tasks : List Phase) : Nat :=
  (tasks.map (Phase.stepsLeft parent)).sum

def OwnAction (task : Nat) (action : Action) : Prop :=
  action = .streamPoll task ∨ action = .streamEnd task ∨ action = .streamCancelled task ∨
    ∃ time, action = .streamClosed task time

/-- A step of the task of a stream of the connection. -/
def OwnStep (parent : Nat) (tasks : List Phase) (action : Action) : Prop :=
  ∃ task phase, tasks[task]? = some phase ∧ phase.isStreamOf parent = true ∧
    OwnAction task action

def Phase.gone : Phase → Bool
  | .closing | .ended => true
  | _ => false

theorem cancelled_iff : s.cancelled parent = true ↔ (s.tasks[parent]?).any Phase.gone = true := by
  unfold Server.cancelled
  rw [decide_eq_true_eq]
  rcases s.tasks[parent]? with _ | phase
  · simp
  · cases phase <;> simp [Phase.gone]

theorem Phase.stepsLeft_eq_zero_iff :
    phase.stepsLeft parent = 0 ↔ phase.isStreamOf parent = false := by
  cases phase <;> simp [Phase.stepsLeft, Phase.isStreamOf]

theorem no_stream_of_streamsLeft (h : streamsLeft parent tasks = 0) :
    ∀ phase ∈ tasks, phase.isStreamOf parent = false := by
  intro phase hphase
  rw [← Phase.stepsLeft_eq_zero_iff]
  exact List.sum_eq_zero_iff_forall_eq_nat.mp h _ (List.mem_map_of_mem hphase)

theorem streamsLeft_lt (htask : tasks[task]? = some phase)
    (hlt : phase'.stepsLeft parent < phase.stepsLeft parent) :
    streamsLeft parent (tasks.set task phase') < streamsLeft parent tasks := by
  have hsum := sum_map_set_add (b := phase') (Phase.stepsLeft parent) htask
  unfold streamsLeft
  omega

theorem gone_set (h : (tasks[parent]?).any Phase.gone = true) (htask : tasks[task]? = some phase)
    (hgone : phase.gone = true → phase'.gone = true) :
    ((tasks.set task phase')[parent]?).any Phase.gone = true := by
  by_cases heq : task = parent
  · subst heq
    rw [htask, Option.any_some] at h
    rw [List.getElem?_set_self (List.getElem?_eq_some_iff.mp htask).1, Option.any_some]
    exact hgone h
  · rwa [List.getElem?_set_ne heq]

/-- The connection stays gone, and its streams do not get more to do. -/
structure Draining (parent : Nat) (tasks tasks' : List Phase) : Prop where
  gone : (tasks'[parent]?).any Phase.gone = true
  left : streamsLeft parent tasks' ≤ streamsLeft parent tasks

theorem draining_set (h : (tasks[parent]?).any Phase.gone = true)
    (htask : tasks[task]? = some phase) (hgone : phase.gone = true → phase'.gone = true)
    (hle : phase'.stepsLeft parent ≤ phase.stepsLeft parent) :
    Draining parent tasks (tasks.set task phase') := by
  refine ⟨gone_set h htask hgone, ?_⟩
  have hsum := sum_map_set_add (b := phase') (Phase.stepsLeft parent) htask
  unfold streamsLeft
  omega

theorem draining_append (h : (tasks[parent]?).any Phase.gone = true)
    (hnone : phase.stepsLeft parent = 0) : Draining parent tasks (tasks ++ [phase]) := by
  obtain ⟨host, hparent, hgone⟩ := Option.any_eq_true _ _ |>.mp h
  refine ⟨?_, ?_⟩
  · rw [List.getElem?_append_left (List.getElem?_eq_some_iff.mp hparent).1, hparent]
    exact hgone
  · simp [streamsLeft, hnone]

theorem Draining.trans {tasks' tasks'' : List Phase} (h : Draining parent tasks tasks')
    (h' : Draining parent tasks' tasks'') : Draining parent tasks tasks'' :=
  ⟨h'.gone, h'.left.trans h.left⟩

theorem draining_countOut (h : (s.tasks[parent]?).any Phase.gone = true) (host time : Nat) :
    Draining parent s.tasks (s.countOut host time).tasks := by
  unfold Server.countOut
  split
  · rename_i hhost
    split
    · exact draining_set h hhost (by simp [Phase.gone]) (Nat.le_refl _)
    · exact ⟨h, Nat.le_refl _⟩
  · exact ⟨h, Nat.le_refl _⟩

theorem draining_of_step (h : (s.tasks[parent]?).any Phase.gone = true)
    (hcase : StepCase semaphore config s action s' o) : Draining parent s.tasks s'.tasks := by
  have hconnect : (acceptConnection config).stepsLeft parent = 0 := by
    rcases acceptConnection_cases config with heq | heq <;> rw [heq] <;> rfl
  cases hcase with
  | accepted hidle => exact draining_append h rfl
  | acceptFailed | stoppedIdle => exact ⟨h, Nat.le_refl _⟩
  | stoppedWaiting htask => exact draining_set h htask (by simp [Phase.gone]) (Nat.zero_le _)
  | acquired htask hpermit hphase =>
      refine draining_set h htask (by simp [Phase.gone]) ?_
      rcases hphase with rfl | rfl
      · exact Nat.zero_le _
      · exact hconnect.le.trans (Nat.zero_le _)
  | secured htask =>
      exact draining_set h htask (by simp [Phase.gone]) (hconnect.le.trans (Nat.zero_le _))
  | @upgraded _ pingPong htask =>
      refine draining_set h htask (by simp [Phase.gone]) ?_
      rcases upgraded_cases config pingPong with heq | heq | ⟨conn, heq⟩
      all_goals
        rw [heq]
        exact Nat.zero_le _
  | finished htask hphase haction => exact draining_set h htask (fun _ => rfl) (Nat.zero_le _)
  | polled htask => exact draining_set h htask (by simp [Phase.gone]) (Nat.zero_le _)
  | @spawned task _ _ conn _ loop' htask =>
      have hset : Draining parent s.tasks (s.enter task (.grpc conn loop')).tasks :=
        draining_set h htask (by simp [Phase.gone]) (Nat.zero_le _)
      refine hset.trans (draining_append hset.gone ?_)
      rw [Phase.stepsLeft, if_neg]
      rintro rfl
      rw [htask] at h
      cases h
  | left htask => exact draining_set h htask (fun _ => rfl) (Nat.zero_le _)
  | unlimited htask | admitted htask | refused htask | abandoned htask | dropped htask _ =>
      refine draining_set h htask (by simp [Phase.gone]) ?_
      simp only [Phase.stepsLeft]
      split <;> omega
  | @counted task _ _ htask =>
      have hset : Draining parent s.tasks (s.enter task .ended).tasks :=
        draining_set h htask (fun _ => rfl) (Nat.zero_le _)
      exact hset.trans (draining_countOut hset.gone _ _)

theorem streamsLeft_countOut (s : Server σ) (host time : Nat) :
    streamsLeft parent (s.countOut host time).tasks = streamsLeft parent s.tasks := by
  unfold Server.countOut
  split
  · rename_i hhost
    split
    · exact sum_map_set_add (Phase.stepsLeft parent) hhost
    · rfl
  · rfl

theorem own_step_lt (hcase : StepCase semaphore config s action s' o)
    (hown : OwnStep parent s.tasks action) :
    streamsLeft parent s'.tasks < streamsLeft parent s.tasks := by
  obtain ⟨task, phase, htask, hphase, haction⟩ := hown
  have hstream {p : Nat} (hof : (p = parent : Bool) = true) : p = parent := of_decide_eq_true hof
  rcases haction with rfl | rfl | rfl | ⟨time, rfl⟩
  · cases hcase with
    | unlimited hpolled | admitted hpolled | refused hpolled =>
        cases hpolled.symm.trans htask
        refine streamsLeft_lt htask ?_
        simp [Phase.stepsLeft, hstream hphase]
    | finished _ _ hother | dropped _ hother => simp at hother
  · cases hcase with
    | finished _ _ hother => simp at hother
    | dropped hdropped hsame =>
        obtain rfl : task = _ := by simpa using hsame
        cases hdropped.symm.trans htask
        refine streamsLeft_lt htask ?_
        simp [Phase.stepsLeft, hstream hphase]
  · cases hcase with
    | finished _ _ hother => simp at hother
    | abandoned habandoned =>
        cases habandoned.symm.trans htask
        refine streamsLeft_lt htask ?_
        simp [Phase.stepsLeft, hstream hphase]
    | dropped hdropped hsame =>
        obtain rfl : task = _ := by simpa using hsame
        cases hdropped.symm.trans htask
        refine streamsLeft_lt htask ?_
        simp [Phase.stepsLeft, hstream hphase]
  · cases hcase with
    | finished _ _ hother | dropped _ hother => simp at hother
    | counted hclosing =>
        cases hclosing.symm.trans htask
        rw [streamsLeft_countOut]
        refine streamsLeft_lt htask ?_
        simp [Phase.stepsLeft, hstream hphase]

/-- From wherever it is, a stream whose connection is gone can take a step of its own. -/
theorem own_step_enabled (h : s.cancelled parent = true) (htask : s.tasks[task]? = some phase)
    (hphase : phase.isStreamOf parent = true) :
    ∃ action s' o, OwnAction task action ∧ step semaphore config s action = some (s', o) := by
  cases phase with
  | stream p | streamSession p =>
      obtain rfl : p = parent := by simpa [Phase.isStreamOf] using hphase
      have hstep : ∃ s' o, step semaphore config s (.streamCancelled task) = some (s', o) := by
        simp only [step, htask, h]
        exact ⟨_, _, rfl⟩
      obtain ⟨s', o, hstep⟩ := hstep
      exact ⟨_, s', o, .inr (.inr (.inl rfl)), hstep⟩
  | streamClosing p =>
      have hstep : ∃ s' o, step semaphore config s (.streamClosed task 0) = some (s', o) := by
        simp only [step, htask]
        exact ⟨_, _, rfl⟩
      obtain ⟨s', o, hstep⟩ := hstep
      exact ⟨_, s', o, .inr (.inr (.inr ⟨0, rfl⟩)), hstep⟩
  | _ => cases hphase

/-- The streams of a connection that has left its loop end by themselves: every step of the
server keeps it gone and leaves them no more to do, every step of one of their own tasks leaves
them less, and until it has ended each of them can take such a step.  A task that has ended
neither holds a permit nor waits for one. -/
theorem cancelled_streams_drain {view : σ → SemaphoreView Nat} (hlawful : semaphore.Lawful view)
    {actions : List Action} {trace : History}
    (hrun : runServer semaphore config actions = some (s, trace))
    (h : s.cancelled parent = true) :
    (∀ action s' o, step semaphore config s action = some (s', o) →
        s'.cancelled parent = true ∧
          streamsLeft parent s'.tasks ≤ streamsLeft parent s.tasks ∧
          (OwnStep parent s.tasks action →
            streamsLeft parent s'.tasks < streamsLeft parent s.tasks)) ∧
      (∀ (task : Nat) phase, s.tasks[task]? = some phase → phase.isStreamOf parent = true →
        ∃ action s' o, OwnAction task action ∧
          step semaphore config s action = some (s', o)) ∧
      (streamsLeft parent s.tasks = 0 → ∀ phase ∈ s.tasks, phase.isStreamOf parent = false) ∧
      ∀ limiter (task : Nat), s.connLimiter = some limiter → s.tasks[task]? = some .ended →
        task ∉ (view limiter).holders ∧ task ∉ (view limiter).waiters := by
  refine ⟨?_, ?_, no_stream_of_streamsLeft, ?_⟩
  · intro action s' o hstep
    have hcase := stepCase_of_step hstep
    have hdraining := draining_of_step (cancelled_iff.mp h) hcase
    exact ⟨cancelled_iff.mpr hdraining.gone, hdraining.left, own_step_lt hcase⟩
  · intro task phase htask hphase
    exact own_step_enabled h htask hphase
  · intro limiter task hlimiter hended
    have haccounts := (permitInv_run hlawful hrun).accounts limiter hlimiter
    refine not_or.mp ?_
    change ¬ (view limiter).Asked task
    rw [haccounts.asked_iff hended]
    exact Bool.false_ne_true

theorem cancelled_streams_drain_two :
    ∃ s trace, runServer (SemaphoreView.api Nat) twoConnections
        [.accept, .acquired 0, .upgrade 0 (some false), .h2 0 1 (.request "POST" "/s/Tun"),
          .streamPoll 1, .h2 0 2 (.request "POST" "/s/TunMulti"), .h2 0 3 .connectionEnd] =
            some (s, trace) ∧
      s.cancelled 0 = true ∧ streamsLeft 0 s.tasks = 5 ∧
      ∃ action s' o, OwnAction 1 action ∧
        step (SemaphoreView.api Nat) twoConnections s action = some (s', o) ∧
        streamsLeft 0 s'.tasks < 5 := by
  obtain ⟨s, trace, hrun, hgone, hleft, htask⟩ : ∃ s trace,
      runServer (SemaphoreView.api Nat) twoConnections
        [.accept, .acquired 0, .upgrade 0 (some false), .h2 0 1 (.request "POST" "/s/Tun"),
          .streamPoll 1, .h2 0 2 (.request "POST" "/s/TunMulti"), .h2 0 3 .connectionEnd] =
            some (s, trace) ∧
      s.cancelled 0 = true ∧ streamsLeft 0 s.tasks = 5 ∧
      s.tasks[1]? = some (.streamSession 0) :=
    ⟨_, _, rfl, rfl, rfl, rfl⟩
  obtain ⟨hsteps, henabled, -, -⟩ :=
    cancelled_streams_drain (SemaphoreView.lawful_api Nat) hrun hgone
  obtain ⟨action, s', o, haction, hstep⟩ := henabled 1 _ htask rfl
  have hless := (hsteps action s' o hstep).2.2 ⟨1, _, htask, rfl, haction⟩
  exact ⟨s, trace, hrun, hgone, hleft, action, s', o, haction, hstep, hleft ▸ hless⟩

end Drain

end TrojanServer.ServerLoop
