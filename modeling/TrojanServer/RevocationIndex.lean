import TrojanServer.ConnectionIndex
import TrojanServer.Revocation

namespace TrojanServer.Revocation

open TrojanServer.ConnectionManager
open TrojanServer.Relay

inductive StepCase (s : System) : Action → System → Prop
  | authenticated {session password user} (hphase : s.sessions session = .accepted)
      (huser : s.authenticate password = some user) :
      StepCase s (.authenticate session password) (s.setPhase session (.authenticated user))
  | refused {session password} (hphase : s.sessions session = .accepted) :
      StepCase s (.authenticate session password) (s.setPhase session .closed)
  | fetchAdd {session user} (hphase : s.sessions session = .authenticated user) :
      StepCase s (.fetchAdd session)
        ({ s with manager := s.manager.fetchAdd.2
                  registrations := s.registrations + 1 }.setPhase session
          (.allocated user s.manager.nextConnId))
  | insertConnection {session user id} (hphase : s.sessions session = .allocated user id) :
      StepCase s (.insertConnection session)
        ({ s with manager := s.manager.insertConnection id ⟨user, session⟩ }.setPhase session
          (.inserted user id))
  | insertUserConnection {session user id} (hphase : s.sessions session = .inserted user id) :
      StepCase s (.insertUserConnection session)
        ({ s with manager := s.manager.insertUserConnection user id }.setPhase session
          (.registered user id))
  | removeConnection {session user id conn} (hphase : s.sessions session = .registered user id)
      (hconn : s.manager.connections id = some conn) :
      StepCase s (.removeConnection session)
        ({ s with manager := (s.manager.removeConnection id).2 }.setPhase session
          (.removing conn.userId id))
  | removeMissing {session user id} (hphase : s.sessions session = .registered user id)
      (hconn : s.manager.connections id = none) :
      StepCase s (.removeConnection session)
        ({ s with manager := (s.manager.removeConnection id).2 }.setPhase session .closed)
  | removeUserConnection {session user id} (hphase : s.sessions session = .removing user id) :
      StepCase s (.removeUserConnection session)
        ({ s with manager := s.manager.removeUserConnection user id }.setPhase session .closed)
  | update {users removedIds uuidChangedIds} :
      StepCase s (.update users removedIds uuidChangedIds)
        (s.update users removedIds uuidChangedIds)
  | kickNobody {callback order user queue revoked}
      (hcallback : s.callbacks[callback]? = some ⟨user :: queue, none, revoked⟩)
      (hids : s.manager.userConnections user = none) :
      StepCase s (.kickStart callback order) (s.setCallback callback ⟨queue, none, revoked⟩)
  | kickStart {callback order user queue revoked}
      (hcallback : s.callbacks[callback]? = some ⟨user :: queue, none, revoked⟩)
      (hids : s.manager.userConnections user = some order.toFinset) :
      StepCase s (.kickStart callback order)
        (s.setCallback callback ⟨queue, some (user, order), revoked⟩)
  | kickOne {callback user id ids queue revoked}
      (hcallback : s.callbacks[callback]? = some ⟨queue, some (user, id :: ids), revoked⟩) :
      StepCase s (.kickOne callback)
        ({ s with manager := s.manager.cancelConnection id }.setCallback callback
          ⟨queue, some (user, ids), revoked⟩)
  | kickEnd {callback user queue revoked}
      (hcallback : s.callbacks[callback]? = some ⟨queue, some (user, []), revoked⟩) :
      StepCase s (.kickEnd callback) (s.setCallback callback ⟨queue, none, revoked⟩)

theorem step_cases {s s' : System} {a : Action} {out : Unit}
    (h : s.step a = some (s', out)) : StepCase s a s' := by
  cases a with
  | authenticate session password =>
      simp only [System.step] at h
      split at h
      · rename_i hphase
        split at h
        · rename_i user huser
          cases h
          exact .authenticated hphase huser
        · cases h
          exact .refused hphase
      · cases h
  | fetchAdd session =>
      simp only [System.step] at h
      split at h
      · rename_i user hphase
        cases h
        exact .fetchAdd hphase
      · cases h
  | insertConnection session =>
      simp only [System.step] at h
      split at h
      · rename_i user id hphase
        cases h
        exact .insertConnection hphase
      · cases h
  | insertUserConnection session =>
      simp only [System.step] at h
      split at h
      · rename_i user id hphase
        split at h
        · cases h
        · cases h
          exact .insertUserConnection hphase
      · cases h
  | removeConnection session =>
      simp only [System.step] at h
      split at h
      · rename_i user id hphase
        split at h
        · rename_i conn hconn
          cases h
          exact .removeConnection hphase hconn
        · rename_i hconn
          cases h
          exact .removeMissing hphase hconn
      · cases h
  | removeUserConnection session =>
      simp only [System.step] at h
      split at h
      · rename_i user id hphase
        split at h
        · cases h
        · cases h
          exact .removeUserConnection hphase
      · cases h
  | update users removedIds uuidChangedIds =>
      cases h
      exact .update
  | kickStart callback order =>
      simp only [System.step] at h
      split at h
      · rename_i user queue revoked hcallback
        split at h
        · rename_i hids
          cases h
          exact .kickNobody hcallback hids
        · rename_i ids hids
          split at h
          · rename_i horder
            cases h
            exact .kickStart hcallback (by rw [hids, horder.2])
          · cases h
      · cases h
  | kickOne callback =>
      simp only [System.step] at h
      split at h
      · rename_i queue user id ids revoked hcallback
        cases h
        exact .kickOne hcallback
      · cases h
  | kickEnd callback =>
      simp only [System.step] at h
      split at h
      · rename_i queue user revoked hcallback
        cases h
        exact .kickEnd hcallback
      · cases h

/-- The manager apart from its tokens, which `register` and `unregister` do not cancel. -/
def untouched (m : Manager) : Manager := { m with cancelled := fun _ => false }

theorem untouched_removeUserConnection (m : Manager) (user : UserId) (id : ConnectionId) :
    untouched (m.removeUserConnection user id) = (untouched m).removeUserConnection user id := by
  simp only [Manager.removeUserConnection, untouched]
  cases m.userConnections user <;> rfl

theorem untouched_cancelConnection (m : Manager) (id : ConnectionId) :
    untouched (m.cancelConnection id) = untouched m := by
  unfold Manager.cancelConnection
  cases m.connections id <;> rfl

open ConnectionIndex in
/-- The call of `register` behind the phase of a session, if there is one. -/
inductive CallOf (t : ConnectionIndex.System) (session : SessionId) : Phase → Prop
  | idle {phase : Phase} (hnone : ∀ call ∈ t.registers, call.token ≠ session)
      (hphase : phase = .accepted ∨ (∃ user, phase = .authenticated user) ∨ phase = .closed) :
      CallOf t session phase
  | allocated {user : UserId} {id : ConnectionId}
      (hcall : ⟨user, session, id, .allocated⟩ ∈ t.registers) :
      CallOf t session (.allocated user id)
  | inserted {user : UserId} {id : ConnectionId}
      (hcall : ⟨user, session, id, .inserted⟩ ∈ t.registers) :
      CallOf t session (.inserted user id)
  | registered {user : UserId} {id : ConnectionId}
      (hcall : ⟨user, session, id, .returned⟩ ∈ t.registers)
      (hpresent : t.manager.connections id = some ⟨user, session⟩) :
      CallOf t session (.registered user id)
  | removing {user : UserId} {id : ConnectionId}
      (hcall : ⟨user, session, id, .returned⟩ ∈ t.registers) (hremoval : (user, id) ∈ t.removals) :
      CallOf t session (.removing user id)
  | closed {user : UserId} {id : ConnectionId}
      (hcall : ⟨user, session, id, .returned⟩ ∈ t.registers)
      (hgone : t.manager.connections id = none) : CallOf t session .closed

/-- The calls of the sessions. -/
structure Follows (s : System) (t : ConnectionIndex.System) : Prop where
  manager : t.manager = untouched s.manager
  registrations : t.registers.length = s.registrations
  calls : ∀ session, CallOf t session (s.sessions session)

/-- As long as ids are not reused, the sessions are callers of `register` and `unregister`. -/
def IndexInv (s : System) : Prop :=
  ∃ t, ConnectionIndex.IndexInv t ∧ t.registers.length ≤ 2 ^ 64 ∧ Follows s t

section Follows

variable {s s' : System} {t t' : ConnectionIndex.System} {session : SessionId} {phase : Phase}
  {user : UserId} {id : ConnectionId}

theorem indexInv_start (users : List (Password × UserId)) : IndexInv (System.start users) :=
  ⟨.start, ConnectionIndex.indexInv_start, Nat.zero_le _, rfl, rfl,
    fun _ => .idle (by simp [ConnectionIndex.System.start]) (.inl rfl)⟩

theorem Follows.call (h : Follows s t) (hphase : s.sessions session = phase) :
    CallOf t session phase :=
  hphase ▸ h.calls session

theorem CallOf.of_authenticated (h : CallOf t session (.authenticated user)) :
    ∀ call ∈ t.registers, call.token ≠ session := by
  cases h with
  | idle hnone _ => exact hnone

theorem CallOf.of_allocated (h : CallOf t session (.allocated user id)) :
    ⟨user, session, id, .allocated⟩ ∈ t.registers := by
  cases h with
  | idle _ hidle => simp at hidle
  | allocated hcall => exact hcall

theorem CallOf.of_inserted (h : CallOf t session (.inserted user id)) :
    ⟨user, session, id, .inserted⟩ ∈ t.registers := by
  cases h with
  | idle _ hidle => simp at hidle
  | inserted hcall => exact hcall

theorem CallOf.of_registered (h : CallOf t session (.registered user id)) :
    ⟨user, session, id, .returned⟩ ∈ t.registers ∧
      t.manager.connections id = some ⟨user, session⟩ := by
  cases h with
  | idle _ hidle => simp at hidle
  | registered hcall hpresent => exact ⟨hcall, hpresent⟩

theorem CallOf.of_removing (h : CallOf t session (.removing user id)) :
    ⟨user, session, id, .returned⟩ ∈ t.registers ∧ (user, id) ∈ t.removals := by
  cases h with
  | idle _ hidle => simp at hidle
  | removing hcall hremoval => exact ⟨hcall, hremoval⟩

/-- The calls of another session notice nothing. -/
theorem CallOf.other (h : CallOf t session phase)
    (hcalls : ∀ call, call.token = session → (call ∈ t'.registers ↔ call ∈ t.registers))
    (hconnections : ∀ call ∈ t.registers, call.token = session →
      t'.manager.connections call.id = t.manager.connections call.id)
    (hremovals : ∀ call ∈ t.registers, call.token = session →
      (call.user, call.id) ∈ t.removals → (call.user, call.id) ∈ t'.removals) :
    CallOf t' session phase := by
  cases h with
  | idle hnone hphase =>
      refine .idle ?_ hphase
      intro call hcall htoken
      exact hnone call ((hcalls call htoken).mp hcall) htoken
  | allocated hcall => exact .allocated ((hcalls _ rfl).mpr hcall)
  | inserted hcall => exact .inserted ((hcalls _ rfl).mpr hcall)
  | registered hcall hpresent =>
      refine .registered ((hcalls _ rfl).mpr hcall) ?_
      rw [hconnections _ hcall rfl]
      exact hpresent
  | removing hcall hremoval =>
      exact .removing ((hcalls _ rfl).mpr hcall) (hremovals _ hcall rfl hremoval)
  | closed hcall hgone =>
      refine .closed ((hcalls _ rfl).mpr hcall) ?_
      rw [hconnections _ hcall rfl]
      exact hgone

/-- One session goes to another phase. -/
theorem Follows.moved (h : Follows s t) (hmanager : t'.manager = untouched s'.manager)
    (hregistrations : t'.registers.length = s'.registrations)
    (hsessions : s'.sessions = Function.update s.sessions session phase)
    (hself : CallOf t' session phase)
    (hothers : ∀ session' phase', session' ≠ session → CallOf t session' phase' →
      CallOf t' session' phase') : Follows s' t' := by
  refine ⟨hmanager, hregistrations, ?_⟩
  intro session'
  rw [hsessions]
  by_cases hsession : session' = session
  · subst hsession
    rw [Function.update_self]
    exact hself
  · rw [Function.update_of_ne hsession]
    exact hothers session' _ hsession (h.calls session')

theorem mem_set_iff {registers : List ConnectionIndex.RegisterCall} {k : Nat}
    {old new call : ConnectionIndex.RegisterCall} (hold : registers[k]? = some old)
    (htoken : call.token ≠ old.token) (htoken' : call.token ≠ new.token) :
    call ∈ registers.set k new ↔ call ∈ registers := by
  simp only [List.mem_iff_getElem?, IndexedList.getElem?_set_of_some hold]
  constructor
  · rintro ⟨j, ⟨-, rfl⟩ | ⟨-, hj⟩⟩
    · exact absurd rfl htoken'
    · exact ⟨j, hj⟩
  · rintro ⟨j, hj⟩
    refine ⟨j, .inr ⟨?_, hj⟩⟩
    rintro rfl
    rw [hold] at hj
    cases hj
    exact htoken rfl

/-- Two calls with one token are one call, and so are two calls with one id. -/
theorem call_eq (h : ConnectionIndex.IndexInv t) (hcount : t.registers.length ≤ 2 ^ 64)
    {call call' : ConnectionIndex.RegisterCall} (hcall : call ∈ t.registers)
    (hcall' : call' ∈ t.registers) (hsame : call.token = call'.token ∨ call.id = call'.id) :
    call = call' := by
  obtain ⟨j, hj⟩ := List.mem_iff_getElem?.mp hcall
  obtain ⟨k, hk⟩ := List.mem_iff_getElem?.mp hcall'
  obtain rfl : j = k := by
    rcases hsame with htoken | hid
    · exact h.tokens j k call call' hj hk htoken
    · exact h.unique hcount hj hk hid
  rw [hj] at hk
  exact Option.some.inj hk

theorem id_ne_of_token (hindex : ConnectionIndex.IndexInv t)
    (hcount : t.registers.length ≤ 2 ^ 64) {call call' : ConnectionIndex.RegisterCall}
    (hcall : call ∈ t.registers) (hcall' : call' ∈ t.registers)
    (hne : call'.token ≠ call.token) : call'.id ≠ call.id := by
  intro hid
  obtain rfl := call_eq hindex hcount hcall' hcall (.inr hid)
  exact hne rfl

theorem IndexInv.fetchAdd (h : IndexInv s) (hcount : s.registrations < 2 ^ 64)
    (hphase : s.sessions session = .authenticated user) :
    IndexInv ({ s with manager := s.manager.fetchAdd.2
                       registrations := s.registrations + 1 }.setPhase session
      (.allocated user s.manager.nextConnId)) := by
  obtain ⟨t, hindex, -, hfollows⟩ := h
  have hnone := (hfollows.call hphase).of_authenticated
  have hfresh : session ∉ t.registers.map ConnectionIndex.RegisterCall.token := by
    intro hmem
    obtain ⟨call, hcall, htoken⟩ := List.mem_map.mp hmem
    exact hnone call hcall htoken
  refine ⟨_, hindex.fetchAdd user hfresh, ?_, ?_⟩
  · rw [List.length_append, hfollows.registrations]
    exact hcount
  · refine hfollows.moved ?_ ?_ rfl (.allocated ?_) ?_
    · rw [hfollows.manager]
      rfl
    · rw [List.length_append, hfollows.registrations]
      rfl
    · rw [hfollows.manager]
      exact List.mem_append_right _ (List.mem_singleton_self _)
    · intro session' phase' hne hother
      refine hother.other ?_ (fun _ _ _ => rfl) (fun _ _ _ => id)
      rintro call rfl
      simp only [List.mem_append, List.mem_singleton, or_iff_left_iff_imp]
      rintro rfl
      exact absurd rfl hne

theorem IndexInv.insertConnection (h : IndexInv s)
    (hphase : s.sessions session = .allocated user id) :
    IndexInv ({ s with manager := s.manager.insertConnection id ⟨user, session⟩ }.setPhase session
      (.inserted user id)) := by
  obtain ⟨t, hindex, hcount, hfollows⟩ := h
  have hcall := (hfollows.call hphase).of_allocated
  obtain ⟨k, hk⟩ := List.mem_iff_getElem?.mp hcall
  refine ⟨_, hindex.insertConnection hcount hk, ?_, ?_⟩
  · rwa [List.length_set]
  · refine hfollows.moved ?_ ?_ rfl (.inserted ?_) ?_
    · rw [hfollows.manager]
      rfl
    · rw [List.length_set]
      exact hfollows.registrations
    · exact List.mem_set (List.getElem?_eq_some_iff.mp hk).1 _
    · intro session' phase' hne hother
      refine hother.other ?_ ?_ (fun _ _ _ hremoval => hremoval)
      · rintro call rfl
        exact mem_set_iff hk hne hne
      · rintro call hmem rfl
        exact Function.update_of_ne (id_ne_of_token hindex hcount hcall hmem hne) _ _

theorem IndexInv.insertUserConnection (h : IndexInv s)
    (hphase : s.sessions session = .inserted user id) :
    IndexInv ({ s with manager := s.manager.insertUserConnection user id }.setPhase session
      (.registered user id)) := by
  obtain ⟨t, hindex, hcount, hfollows⟩ := h
  have hcall := (hfollows.call hphase).of_inserted
  obtain ⟨k, hk⟩ := List.mem_iff_getElem?.mp hcall
  refine ⟨_, hindex.insertUserConnection hk, ?_, ?_⟩
  · rwa [List.length_set]
  · refine hfollows.moved ?_ ?_ rfl (.registered ?_ ?_) ?_
    · rw [hfollows.manager]
      rfl
    · rw [List.length_set]
      exact hfollows.registrations
    · exact List.mem_set (List.getElem?_eq_some_iff.mp hk).1 _
    · exact hindex.present k user session id hk
    · intro session' phase' hne hother
      refine hother.other ?_ (fun _ _ _ => rfl) (fun _ _ _ hremoval => hremoval)
      rintro call rfl
      exact mem_set_iff hk hne hne

theorem IndexInv.removeConnection (h : IndexInv s) {conn : ActiveConnection}
    (hphase : s.sessions session = .registered user id)
    (hconn : s.manager.connections id = some conn) :
    IndexInv ({ s with manager := (s.manager.removeConnection id).2 }.setPhase session
      (.removing conn.userId id)) := by
  obtain ⟨t, hindex, hcount, hfollows⟩ := h
  obtain ⟨hcall, hpresent⟩ := (hfollows.call hphase).of_registered
  obtain ⟨k, hk⟩ := List.mem_iff_getElem?.mp hcall
  obtain rfl : conn = ⟨user, session⟩ := by
    rw [hfollows.manager] at hpresent
    exact Option.some.inj (hconn.symm.trans hpresent)
  refine ⟨_, hindex.removeConnection hcount hk hpresent, hcount, ?_⟩
  refine hfollows.moved ?_ hfollows.registrations rfl (.removing hcall ?_) ?_
  · rw [hfollows.manager]
    rfl
  · exact List.mem_append_right _ (List.mem_singleton_self _)
  · intro session' phase' hne hother
    refine hother.other (fun _ _ => Iff.rfl) ?_ ?_
    · rintro call hmem rfl
      exact Function.update_of_ne (id_ne_of_token hindex hcount hcall hmem hne) _ _
    · exact fun _ _ _ => List.mem_append_left _

theorem IndexInv.not_missing (h : IndexInv s) (hphase : s.sessions session = .registered user id) :
    s.manager.connections id = some ⟨user, session⟩ := by
  obtain ⟨t, -, -, hfollows⟩ := h
  obtain ⟨-, hpresent⟩ := (hfollows.call hphase).of_registered
  rw [hfollows.manager] at hpresent
  exact hpresent

theorem IndexInv.removeUserConnection (h : IndexInv s)
    (hphase : s.sessions session = .removing user id) :
    IndexInv ({ s with manager := s.manager.removeUserConnection user id }.setPhase session
      .closed) := by
  obtain ⟨t, hindex, hcount, hfollows⟩ := h
  obtain ⟨hcall, hremoval⟩ := (hfollows.call hphase).of_removing
  have hframe := (Manager.removeUserConnection_frame (m := t.manager) user id).1
  refine ⟨_, hindex.removeUserConnection hremoval, hcount, ?_⟩
  refine hfollows.moved ?_ hfollows.registrations rfl (.closed hcall ?_) ?_
  · rw [hfollows.manager]
    exact (untouched_removeUserConnection _ _ _).symm
  · rw [hframe]
    exact (hindex.removing user id hremoval).1
  · intro session' phase' hne hother
    refine hother.other (fun _ _ => Iff.rfl) ?_ ?_
    · intro call _ _
      rw [hframe]
    · rintro call hmem rfl hold
      refine (hindex.removals.mem_erase_iff).mpr ⟨?_, hold⟩
      intro heq
      exact id_ne_of_token hindex hcount hcall hmem hne (congrArg Prod.snd heq)

theorem IndexInv.authenticate (h : IndexInv s) (haccepted : s.sessions session = .accepted)
    (hphase : (∃ user, phase = .authenticated user) ∨ phase = .closed) :
    IndexInv (s.setPhase session phase) := by
  obtain ⟨t, hindex, hcount, hfollows⟩ := h
  have hcall := hfollows.calls session
  rw [haccepted] at hcall
  cases hcall with
  | idle hnone _ =>
      refine ⟨t, hindex, hcount, hfollows.moved hfollows.manager hfollows.registrations rfl
        (.idle hnone (.inr hphase)) ?_⟩
      exact fun _ _ _ hother => hother

theorem IndexInv.of_unchanged (h : IndexInv s) (hregistrations : s'.registrations = s.registrations)
    (hmanager : untouched s'.manager = untouched s.manager)
    (hsessions : s'.sessions = s.sessions) : IndexInv s' := by
  obtain ⟨t, hindex, hcount, hfollows⟩ := h
  refine ⟨t, hindex, hcount, ?_, ?_, ?_⟩
  · rw [hmanager, hfollows.manager]
  · rw [hregistrations, hfollows.registrations]
  · rw [hsessions]
    exact hfollows.calls

theorem IndexInv.step {a : Action} (h : IndexInv s) (hcase : StepCase s a s')
    (hcount : ∀ session, a = .fetchAdd session → s.registrations < 2 ^ 64) : IndexInv s' := by
  cases hcase with
  | authenticated hphase _ => exact h.authenticate hphase (.inl ⟨_, rfl⟩)
  | refused hphase => exact h.authenticate hphase (.inr rfl)
  | fetchAdd hphase => exact h.fetchAdd (hcount _ rfl) hphase
  | insertConnection hphase => exact h.insertConnection hphase
  | insertUserConnection hphase => exact h.insertUserConnection hphase
  | removeConnection hphase hconn => exact h.removeConnection hphase hconn
  | removeMissing hphase hconn =>
      rw [h.not_missing hphase] at hconn
      cases hconn
  | removeUserConnection hphase => exact h.removeUserConnection hphase
  | kickOne => exact h.of_unchanged rfl (untouched_cancelConnection _ _) rfl
  | _ => exact h.of_unchanged rfl rfl rfl

/-- Every entry of the map belongs to a session between its insertion and its removal. -/
theorem IndexInv.entry (h : IndexInv s) {conn : ActiveConnection}
    (hconn : s.manager.connections id = some conn) :
    s.sessions conn.cancelToken = .inserted conn.userId id ∨
      s.sessions conn.cancelToken = .registered conn.userId id := by
  obtain ⟨t, hindex, hcount, hfollows⟩ := h
  have hconn' : t.manager.connections id = some conn := by
    rw [hfollows.manager]
    exact hconn
  obtain ⟨k, stage, hstage, hk⟩ := hindex.entry id conn hconn'
  have hmem := List.mem_of_getElem? hk
  have hcall := hfollows.calls conn.cancelToken
  generalize hphase : s.sessions conn.cancelToken = phase at hcall
  cases hcall with
  | idle hnone _ => exact absurd rfl (hnone _ hmem)
  | allocated hcall =>
      cases call_eq hindex hcount hmem hcall (.inl rfl)
      exact absurd rfl hstage
  | inserted hcall =>
      cases call_eq hindex hcount hmem hcall (.inl rfl)
      exact .inl rfl
  | registered hcall _ =>
      cases call_eq hindex hcount hmem hcall (.inl rfl)
      exact .inr rfl
  | removing hcall hremoval =>
      cases call_eq hindex hcount hmem hcall (.inl rfl)
      rw [(hindex.removing _ _ hremoval).1] at hconn'
      cases hconn'
  | closed hcall hgone =>
      cases call_eq hindex hcount hmem hcall (.inl rfl)
      rw [hgone] at hconn'
      cases hconn'

/-- Every registered connection is indexed under its user. -/
theorem IndexInv.indexed (h : IndexInv s) (hphase : s.sessions session = .registered user id) :
    s.manager.Indexed user id := by
  have hpresent := h.not_missing hphase
  obtain ⟨t, hindex, hcount, hfollows⟩ := h
  obtain ⟨hcall, -⟩ := (hfollows.call hphase).of_registered
  obtain ⟨k, hk⟩ := List.mem_iff_getElem?.mp hcall
  have hindexed := (hindex.indexed user id).mpr (.inl ⟨k, session, hk, by
    rw [hfollows.manager]
    exact hpresent⟩)
  rw [hfollows.manager] at hindexed
  exact hindexed

/-- The connection of a session is in the map from its insertion to its removal. -/
theorem IndexInv.present (h : IndexInv s) (hphase : s.sessions session = .inserted user id ∨
    s.sessions session = .registered user id) :
    s.manager.connections id = some ⟨user, session⟩ := by
  rcases hphase with hphase | hphase
  · obtain ⟨t, hindex, -, hfollows⟩ := h
    obtain ⟨k, hk⟩ := List.mem_iff_getElem?.mp (hfollows.call hphase).of_inserted
    have hpresent := hindex.present k user session id hk
    rw [hfollows.manager] at hpresent
    exact hpresent
  · exact h.not_missing hphase

end Follows

end TrojanServer.Revocation
