import TrojanServer.RevocationIndex

namespace TrojanServer.Revocation

open TrojanServer.ConnectionManager
open TrojanServer.Relay
open TrojanServer.StepMachine

/-- The user of a session that `kick_user` cannot find yet. -/
def Phase.pendingFor : Phase → Option UserId
  | .authenticated user => some user
  | .allocated user _ => some user
  | .inserted user _ => some user
  | _ => none

def NoPending (s : System) (user : UserId) : Prop :=
  ∀ session, (s.sessions session).pendingFor ≠ some user

/-- Every connection of the user is cancelled or among the ids still to visit,
and no session is on its way to becoming one. -/
structure Covered (s : System) (user : UserId) (ids : List ConnectionId) : Prop where
  noPending : NoPending s user
  cancelled : ∀ id conn, s.manager.connections id = some conn → conn.userId = user →
    id ∈ ids ∨ s.manager.cancelled conn.cancelToken = true

theorem IndexInv.covered {s : System} (h : IndexInv s) {user : UserId} {ids : List ConnectionId}
    (hnone : NoPending s user) (hids : ∀ id, s.manager.Indexed user id → id ∈ ids) :
    Covered s user ids := by
  refine ⟨hnone, ?_⟩
  rintro id conn hconn rfl
  rcases h.entry hconn with hinserted | hregistered
  · exact absurd (by rw [hinserted]; rfl) (hnone conn.cancelToken)
  · exact .inl (hids id (h.indexed hregistered))

/-- A step that brings the user no session and no connection, and cancels no
less. -/
structure Quiet (s s' : System) (user : UserId) : Prop where
  pending : ∀ session, (s'.sessions session).pendingFor = some user →
    (s.sessions session).pendingFor = some user
  entry : ∀ id conn, s'.manager.connections id = some conn → conn.userId = user →
    s.manager.connections id = some conn
  cancelled : ∀ token, s.manager.cancelled token = true → s'.manager.cancelled token = true

theorem Covered.quiet {s s' : System} {user : UserId} {ids : List ConnectionId}
    (h : Covered s user ids) (hquiet : Quiet s s' user) : Covered s' user ids where
  noPending := fun session hpending => h.noPending session (hquiet.pending session hpending)
  cancelled := fun id conn hconn huser =>
    (h.cancelled id conn (hquiet.entry id conn hconn huser) huser).imp_right (hquiet.cancelled _)

theorem Covered.setCallback {s : System} {user : UserId} {ids : List ConnectionId}
    (h : Covered s user ids) (callback : Nat) (cb : Callback) :
    Covered (s.setCallback callback cb) user ids :=
  ⟨h.noPending, h.cancelled⟩

theorem Quiet.of_unchanged {s s' : System} (user : UserId) (hmanager : s'.manager = s.manager)
    (hsessions : s'.sessions = s.sessions) : Quiet s s' user := by
  refine ⟨?_, ?_, ?_⟩
  · intro session hpending
    rwa [hsessions] at hpending
  · intro id conn hconn _
    rwa [hmanager] at hconn
  · intro token hcancelled
    rwa [hmanager]

theorem pending_setPhase {s : System} {session : SessionId} {phase : Phase} {user : UserId}
    (hphase : phase.pendingFor ≠ some user) (session' : SessionId)
    (hpending : ((s.setPhase session phase).sessions session').pendingFor = some user) :
    (s.sessions session').pendingFor = some user := by
  by_cases hsession : session' = session
  · subst hsession
    simp only [System.setPhase, Function.update_self] at hpending
    exact absurd hpending hphase
  · simpa [System.setPhase, hsession] using hpending

theorem quiet_of_absent {s s' : System} {a : Action} {user : UserId} (hcase : StepCase s a s')
    (habsent : user ∉ s.users.map Prod.snd) (hnone : NoPending s user) : Quiet s s' user := by
  cases hcase with
  | @authenticated _ password user' hphase huser =>
      refine ⟨pending_setPhase ?_, fun _ _ hconn _ => hconn, fun _ h => h⟩
      rintro ⟨⟩
      obtain ⟨entry, hentry, rfl⟩ := Option.map_eq_some_iff.mp huser
      exact habsent (List.mem_map_of_mem (List.mem_of_find?_eq_some hentry))
  | refused =>
      exact ⟨pending_setPhase (by simp [Phase.pendingFor]), fun _ _ hconn _ => hconn, fun _ h => h⟩
  | @fetchAdd session user' hphase =>
      have hne : some user' ≠ some user := by
        simpa [hphase, Phase.pendingFor] using hnone session
      exact ⟨pending_setPhase hne, fun _ _ hconn _ => hconn, fun _ h => h⟩
  | @insertConnection session user' id hphase =>
      have hne : some user' ≠ some user := by
        simpa [hphase, Phase.pendingFor] using hnone session
      refine ⟨pending_setPhase hne, ?_, fun _ h => h⟩
      rintro id' conn hconn rfl
      rcases Manager.of_insertConnection hconn with ⟨-, rfl⟩ | ⟨-, hold⟩
      · exact absurd rfl hne
      · exact hold
  | insertUserConnection =>
      exact ⟨pending_setPhase (by simp [Phase.pendingFor]), fun _ _ hconn _ => hconn, fun _ h => h⟩
  | removeConnection =>
      exact ⟨pending_setPhase (by simp [Phase.pendingFor]),
        fun _ _ hconn _ => Manager.of_removeConnection hconn, fun _ h => h⟩
  | removeMissing =>
      exact ⟨pending_setPhase (by simp [Phase.pendingFor]),
        fun _ _ hconn _ => Manager.of_removeConnection hconn, fun _ h => h⟩
  | @removeUserConnection _ user' id hphase =>
      obtain ⟨hconnections, hcancelled, -⟩ :=
        Manager.removeUserConnection_frame (m := s.manager) user' id
      refine ⟨pending_setPhase (by simp [Phase.pendingFor]), ?_, ?_⟩
      · intro id' conn hconn _
        rw [← hconnections]
        exact hconn
      · intro token h
        rw [← hcancelled] at h
        exact h
  | @kickOne _ _ id =>
      obtain ⟨hconnections, -, -⟩ := Manager.cancelConnection_frame (m := s.manager) id
      refine ⟨fun _ h => h, ?_, fun _ h => Manager.cancelled_cancelConnection.mpr (.inl h)⟩
      intro id' conn hconn _
      rw [← hconnections]
      exact hconn
  | update => exact .of_unchanged user rfl rfl
  | kickNobody => exact .of_unchanged user rfl rfl
  | kickStart => exact .of_unchanged user rfl rfl
  | kickEnd => exact .of_unchanged user rfl rfl

structure Revokes (s : System) (cb : Callback) (user : UserId) : Prop where
  absent : user ∉ s.users.map Prod.snd
  settled : user ∉ cb.queue → (∀ ids, cb.kicking ≠ some (user, ids)) → Covered s user []
  kicking : ∀ ids, cb.kicking = some (user, ids) → Covered s user ids

theorem Revokes.step {s s' : System} {a : Action} {cb : Callback} {user : UserId}
    (h : Revokes s cb user) (hcase : StepCase s a s') (habsent : user ∉ s'.users.map Prod.snd) :
    Revokes s' cb user where
  absent := habsent
  settled := fun hqueue hkicking =>
    have hcovered := h.settled hqueue hkicking
    hcovered.quiet (quiet_of_absent hcase h.absent hcovered.noPending)
  kicking := fun ids hkicking =>
    have hcovered := h.kicking ids hkicking
    hcovered.quiet (quiet_of_absent hcase h.absent hcovered.noPending)

def CallbackInv (s : System) : Prop :=
  ∀ cb ∈ s.callbacks, ∀ user ∈ cb.revoked, Revokes s cb user

/-- No session of a removed user is pending when its kick starts, and the counter
of connection ids has not wrapped around. -/
def WindowFree (s : System) : Action → Prop
  | .fetchAdd _ => s.registrations < 2 ^ 64
  | .kickStart callback _ => ∀ user queue revoked,
      s.callbacks[callback]? = some ⟨user :: queue, none, revoked⟩ → user ∈ revoked →
        NoPending s user
  | _ => True

theorem CallbackInv.setCallback {s s₁ : System} {a : Action} (h : CallbackInv s)
    {callback : Nat} {cb : Callback} (hcase : StepCase s a (s₁.setCallback callback cb))
    (hcallbacks : s₁.callbacks = s.callbacks) (husers : s₁.users = s.users)
    (hcb : ∀ user ∈ cb.revoked, Revokes (s₁.setCallback callback cb) cb user) :
    CallbackInv (s₁.setCallback callback cb) := by
  intro cb' hmem user huser
  rcases List.mem_or_eq_of_mem_set hmem with hold | rfl
  · have hrevokes := h cb' (hcallbacks ▸ hold) user huser
    apply hrevokes.step hcase
    change user ∉ s₁.users.map Prod.snd
    rw [husers]
    exact hrevokes.absent
  · exact hcb user huser

theorem CallbackInv.update {s : System} (h : CallbackInv s) (users : List (Password × UserId))
    (removedIds uuidChangedIds : List UserId) :
    CallbackInv (s.update users removedIds uuidChangedIds) := by
  intro cb hmem user huser
  obtain ⟨cb', hcb', rfl⟩ := List.mem_map.mp hmem
  simp only [Callback.forget, List.mem_filter, decide_eq_true_eq] at huser
  rcases List.mem_append.mp hcb' with hold | hnew
  · have hcase : StepCase s (.update users removedIds uuidChangedIds)
        (s.update users removedIds uuidChangedIds) := .update
    have hrevokes := (h cb' hold user huser.1).step hcase huser.2
    exact ⟨hrevokes.absent, hrevokes.settled, hrevokes.kicking⟩
  · simp only [List.mem_singleton] at hnew
    subst hnew
    refine ⟨huser.2, fun hqueue _ => ?_, by simp [Callback.forget]⟩
    exact absurd (List.mem_append_left _ huser.1) hqueue

theorem CallbackInv.kickStart {s : System} {a : Action} (h : CallbackInv s) {callback : Nat}
    {user : UserId} {queue revoked : List UserId} {kicking : Option (UserId × List ConnectionId)}
    (hcallback : s.callbacks[callback]? = some ⟨user :: queue, none, revoked⟩)
    (hcase : StepCase s a (s.setCallback callback ⟨queue, kicking, revoked⟩))
    (hsettled : user ∈ revoked → (∀ ids, kicking ≠ some (user, ids)) → Covered s user [])
    (hkicking : ∀ user' ids, kicking = some (user', ids) → user' = user ∧
      (user ∈ revoked → Covered s user ids)) :
    CallbackInv (s.setCallback callback ⟨queue, kicking, revoked⟩) := by
  refine h.setCallback hcase rfl rfl fun user' huser' => ?_
  have hrevokes := h _ (List.mem_of_getElem? hcallback) user' huser'
  refine ⟨hrevokes.absent, fun hqueue hnot => ?_, fun ids hids => ?_⟩
  · by_cases heq : user' = user
    · subst heq
      exact (hsettled huser' hnot).setCallback _ _
    · have hcovered := hrevokes.settled (by simp [heq, hqueue]) (by simp)
      exact hcovered.setCallback _ _
  · obtain ⟨rfl, hcovered⟩ := hkicking user' ids hids
    exact (hcovered huser').setCallback _ _

theorem Covered.cancelConnection {s : System} {user : UserId} {id : ConnectionId}
    {ids : List ConnectionId} (h : Covered s user (id :: ids)) :
    Covered { s with manager := s.manager.cancelConnection id } user ids := by
  refine ⟨h.noPending, fun id' conn hconn huser => ?_⟩
  obtain ⟨hconnections, -, -⟩ := Manager.cancelConnection_frame (m := s.manager) id
  replace hconn : s.manager.connections id' = some conn := by
    rw [← hconnections]
    exact hconn
  rcases h.cancelled id' conn hconn huser with hmem | hcancelled
  · rcases List.mem_cons.mp hmem with rfl | hmem
    · exact .inr (Manager.cancelled_cancelConnection.mpr (.inr ⟨conn, hconn, rfl⟩))
    · exact .inl hmem
  · exact .inr (Manager.cancelled_cancelConnection.mpr (.inl hcancelled))

theorem CallbackInv.kickOne {s : System} (h : CallbackInv s) {callback : Nat} {user : UserId}
    {id : ConnectionId} {ids : List ConnectionId} {queue revoked : List UserId}
    (hcallback : s.callbacks[callback]? = some ⟨queue, some (user, id :: ids), revoked⟩) :
    CallbackInv ({ s with manager := s.manager.cancelConnection id }.setCallback callback
      ⟨queue, some (user, ids), revoked⟩) := by
  have hcase := StepCase.kickOne hcallback
  refine h.setCallback hcase rfl rfl fun user' huser' => ?_
  have hrevokes := h _ (List.mem_of_getElem? hcallback) user' huser'
  refine ⟨hrevokes.absent, fun hqueue hnot => ?_, fun ids' hids => ?_⟩
  · have hne : user ≠ user' := by
      rintro rfl
      exact hnot ids rfl
    have hcovered := hrevokes.settled hqueue (by simp [hne])
    exact hcovered.quiet (quiet_of_absent hcase hrevokes.absent hcovered.noPending)
  · obtain ⟨rfl, rfl⟩ : user = user' ∧ ids = ids' := by simpa using hids
    exact (hrevokes.kicking _ rfl).cancelConnection.setCallback _ _

theorem CallbackInv.kickEnd {s : System} (h : CallbackInv s) {callback : Nat} {user : UserId}
    {queue revoked : List UserId}
    (hcallback : s.callbacks[callback]? = some ⟨queue, some (user, []), revoked⟩) :
    CallbackInv (s.setCallback callback ⟨queue, none, revoked⟩) := by
  refine h.setCallback (StepCase.kickEnd hcallback) rfl rfl fun user' huser' => ?_
  have hrevokes := h _ (List.mem_of_getElem? hcallback) user' huser'
  refine ⟨hrevokes.absent, fun hqueue _ => ?_, by simp⟩
  have hcovered : Covered s user' [] := by
    by_cases heq : user' = user
    · subst heq
      exact hrevokes.kicking [] rfl
    · exact hrevokes.settled hqueue (by simp [Ne.symm heq])
  exact hcovered.setCallback _ _

theorem CallbackInv.step {s s' : System} {a : Action} (h : CallbackInv s) (hindex : IndexInv s)
    (hcase : StepCase s a s') (hwindow : WindowFree s a) : CallbackInv s' := by
  have hstep := hcase
  have hother : s'.users = s.users → s'.callbacks = s.callbacks → CallbackInv s' := by
    intro husers hcallbacks cb hmem user huser
    have hrevokes := h cb (hcallbacks ▸ hmem) user huser
    exact hrevokes.step hcase (husers ▸ hrevokes.absent)
  cases hcase with
  | update => exact h.update _ _ _
  | kickNobody hcallback hids =>
      refine h.kickStart hcallback hstep ?_ (by simp)
      intro huser _
      apply hindex.covered (hwindow _ _ _ hcallback huser)
      rintro id ⟨ids, hids', -⟩
      simp [hids] at hids'
  | @kickStart _ order _ _ _ hcallback hids =>
      apply h.kickStart hcallback hstep (by simp)
      rintro user' ids ⟨⟩
      refine ⟨rfl, fun huser => hindex.covered (hwindow _ _ _ hcallback huser) ?_⟩
      rintro id ⟨ids, hids', hmem⟩
      rw [hids] at hids'
      cases hids'
      exact List.mem_toFinset.mp hmem
  | kickOne hcallback => exact h.kickOne hcallback
  | kickEnd hcallback => exact h.kickEnd hcallback
  | _ => exact hother rfl rfl

/-- Once the callback has finished, every connection of a user it removed is
cancelled. -/
def RevocationReaches (s : System) : Prop :=
  ∀ cb ∈ s.callbacks, cb.queue = [] → cb.kicking = none → ∀ user ∈ cb.revoked,
    ∀ id conn, s.manager.connections id = some conn → conn.userId = user →
      s.manager.cancelled conn.cancelToken = true

theorem CallbackInv.reaches {s : System} (h : CallbackInv s) : RevocationReaches s := by
  intro cb hmem hqueue hkicking user huser id conn hconn hconnUser
  have hcovered := (h cb hmem user huser).settled (by simp [hqueue]) (by simp [hkicking])
  simpa using hcovered.cancelled id conn hconn hconnUser

/-- In every run in which no kick starts while a session of the kicked user is
pending, revocation reaches every session. -/
theorem revocation_reaches_sessions {users : List (Password × UserId)} {s : System}
    {actions : List Action} {trace : List (Action × Unit)}
    (hrun : run System.step (System.start users) actions = some (s, trace))
    (hwindow : Along System.step WindowFree (System.start users) actions) :
    RevocationReaches s := by
  suffices h : IndexInv s ∧ CallbackInv s from h.2.reaches
  refine run_induction_along (P := fun _ s => IndexInv s ∧ CallbackInv s) hrun hwindow
    ⟨indexInv_start users, by simp [CallbackInv, System.start]⟩ ?_
  rintro _ s a s' _ ⟨hindex, hcallback⟩ hwindow hstep
  have hcase := step_cases hstep
  refine ⟨hindex.step hcase ?_, hcallback.step hindex hcase hwindow⟩
  rintro session rfl
  exact hwindow

def password : Password := List.Vector.replicate 56 97

/-- Session 0 of user 7 authenticates, the user is removed and kicked, and only
then the session registers. -/
def lateRegistration : List Action :=
  [.authenticate 0 password, .update [] [7] [], .kickStart 0 [], .fetchAdd 0,
    .insertConnection 0, .insertUserConnection 0]

/-- The session stays connected although the callback has finished. -/
theorem late_registration_survives :
    ∃ s trace, run System.step (System.start [(password, 7)]) lateRegistration = some (s, trace) ∧
      s.users = [] ∧ s.callbacks = [⟨[], none, [7]⟩] ∧ s.sessions 0 = .registered 7 1 ∧
      s.manager.connections 1 = some ⟨7, 0⟩ ∧ s.manager.cancelled 0 = false ∧
      ¬ RevocationReaches s := by
  refine ⟨_, _, rfl, rfl, rfl, rfl, rfl, rfl, ?_⟩
  intro h
  have hcancelled := h ⟨[], none, [7]⟩ List.mem_cons_self rfl rfl 7 (by simp) 1 ⟨7, 0⟩ rfl rfl
  cases hcancelled

def earlyRegistration : List Action :=
  [.authenticate 0 password, .fetchAdd 0, .insertConnection 0, .insertUserConnection 0,
    .update [] [7] [], .kickStart 0 [1], .kickOne 0, .kickEnd 0]

theorem early_registration_cancelled :
    ∃ s trace, run System.step (System.start [(password, 7)]) earlyRegistration = some (s, trace) ∧
      s.manager.connections 1 = some ⟨7, 0⟩ ∧ s.manager.cancelled 0 = true ∧
      RevocationReaches s := by
  obtain ⟨s, trace, hrun, hconn, hcancelled⟩ : ∃ s trace,
      run System.step (System.start [(password, 7)]) earlyRegistration = some (s, trace) ∧
        s.manager.connections 1 = some ⟨7, 0⟩ ∧ s.manager.cancelled 0 = true :=
    ⟨_, _, rfl, rfl, rfl⟩
  refine ⟨s, trace, hrun, hconn, hcancelled, revocation_reaches_sessions hrun ?_⟩
  refine along_cons rfl trivial (along_cons rfl (Nat.two_pow_pos 64) (along_cons rfl trivial
    (along_cons rfl trivial (along_cons rfl trivial (along_cons rfl ?_ (along_cons rfl trivial
      (along_cons rfl trivial trivial)))))))
  rintro user queue revoked - - session
  change Phase.pendingFor (Function.update (Function.update (Function.update (Function.update
    (fun _ => Phase.accepted) 0 _) 0 _) 0 _) 0 _ session) ≠ some user
  by_cases hsession : session = 0
  · simp [hsession, Phase.pendingFor]
  · simp [hsession, Phase.pendingFor]

end TrojanServer.Revocation
