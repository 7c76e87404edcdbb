import TrojanServer.Shutdown

namespace TrojanServer.Revocation

open TrojanServer.ConnectionManager
open TrojanServer.Relay

/-- A session goes through its phases in one order. -/
def Phase.rank : Phase → Nat
  | .accepted => 0
  | .authenticated _ => 1
  | .allocated _ _ => 2
  | .inserted _ _ => 3
  | .registered _ _ => 4
  | .removing _ _ => 5
  | .closed => 6

variable {s s' : System} {a : Action} {session : SessionId} {phase : Phase}

theorem rank_le_setPhase (h : (s.sessions session).rank ≤ phase.rank) (session' : SessionId) :
    (s.sessions session').rank ≤ ((s.setPhase session phase).sessions session').rank := by
  by_cases hsession : session' = session
  · subst hsession
    simpa [System.setPhase] using h
  · simp [System.setPhase, hsession]

theorem StepCase.rank_le (h : StepCase s a s') (session : SessionId) :
    (s.sessions session).rank ≤ (s'.sessions session).rank := by
  cases h with
  | authenticated hphase _ => exact rank_le_setPhase (by simp [hphase, Phase.rank]) session
  | refused hphase => exact rank_le_setPhase (by simp [hphase, Phase.rank]) session
  | fetchAdd hphase => exact rank_le_setPhase (by simp [hphase, Phase.rank]) session
  | insertConnection hphase => exact rank_le_setPhase (by simp [hphase, Phase.rank]) session
  | insertUserConnection hphase => exact rank_le_setPhase (by simp [hphase, Phase.rank]) session
  | removeConnection hphase _ => exact rank_le_setPhase (by simp [hphase, Phase.rank]) session
  | removeMissing hphase => exact rank_le_setPhase (by simp [hphase, Phase.rank]) session
  | removeUserConnection hphase => exact rank_le_setPhase (by simp [hphase, Phase.rank]) session
  | _ => exact Nat.le_refl _

theorem StepCase.rank_insertConnection (h : StepCase s (.insertConnection session) s') :
    (s.sessions session).rank = 2 ∧ 3 ≤ (s'.sessions session).rank := by
  cases h with
  | insertConnection hphase => simp [hphase, System.setPhase, Phase.rank]

/-- A step puts a connection into the map only when its session inserts it. -/
theorem StepCase.entry (h : StepCase s a s') {id : ConnectionId} {conn : ActiveConnection}
    (hconn : s'.manager.connections id = some conn) :
    s.manager.connections id = some conn ∨ a = .insertConnection conn.cancelToken := by
  cases h with
  | insertConnection hphase =>
      rcases Manager.of_insertConnection hconn with ⟨-, rfl⟩ | ⟨-, hold⟩
      · exact .inr rfl
      · exact .inl hold
  | removeConnection => exact .inl (Manager.of_removeConnection hconn)
  | removeMissing => exact .inl (Manager.of_removeConnection hconn)
  | @removeUserConnection _ user id' _ =>
      rw [← (Manager.removeUserConnection_frame (m := s.manager) user id').1]
      exact .inl hconn
  | @kickOne _ _ id' =>
      rw [← (Manager.cancelConnection_frame (m := s.manager) id').1]
      exact .inl hconn
  | _ => exact .inl hconn

theorem StepCase.cancelled (h : StepCase s a s') {token : Token}
    (hcancelled : s.manager.cancelled token = true) : s'.manager.cancelled token = true := by
  cases h with
  | @removeUserConnection _ user id _ =>
      rw [← (Manager.removeUserConnection_frame (m := s.manager) user id).2.1] at hcancelled
      exact hcancelled
  | kickOne => exact Manager.cancelled_cancelConnection.mpr (.inl hcancelled)
  | _ => exact hcancelled

end TrojanServer.Revocation

namespace TrojanServer.Shutdown

open TrojanServer.ConnectionManager
open TrojanServer.Relay
open TrojanServer.Revocation
open TrojanServer.StepMachine

variable {σ : Type} {stats : StatsApi σ} {s s' : System σ} {a : Action} {o : Output}
  {trace : Trace}

theorem mem_keysAfter {action : Revocation.Action} {server : Revocation.System}
    (hcase : Revocation.StepCase s.server action server)
    (hkeys : ∀ id, id ∈ s.keys ↔ (s.server.manager.connections id).isSome = true)
    (id : ConnectionId) :
    id ∈ s.keysAfter action ↔ (server.manager.connections id).isSome = true := by
  cases hcase with
  | @insertConnection session user id' hphase =>
      simp only [System.keysAfter, hphase, List.mem_insert_iff, hkeys]
      by_cases hid : id = id'
      · simp [hid, Revocation.System.setPhase, Manager.insertConnection]
      · simp [hid, Revocation.System.setPhase, Manager.insertConnection]
  | @removeConnection session user id' conn hphase hconn
  | @removeMissing session user id' hphase hconn =>
      simp only [System.keysAfter, hphase, List.mem_filter, hkeys]
      by_cases hid : id = id'
      · simp [hid, Revocation.System.setPhase, Manager.removeConnection]
      · simp [hid, Revocation.System.setPhase, Manager.removeConnection]
  | @removeUserConnection _ user id' _ =>
      have hframe := (Manager.removeUserConnection_frame (m := s.server.manager) user id').1
      simp [System.keysAfter, hkeys, Revocation.System.setPhase, hframe]
  | @kickOne _ _ id' =>
      have hframe := (Manager.cancelConnection_frame (m := s.server.manager) id').1
      simp [System.keysAfter, hkeys, Revocation.System.setCallback, hframe]
  | _ => exact hkeys id

/-- The session has put its connection into the map. -/
def Inserted (trace : Trace) (session : SessionId) : Prop :=
  .server (.insertConnection session) ∈ trace.map Prod.fst

theorem inserted_snoc {session : SessionId} :
    Inserted (trace ++ [(a, o)]) session ↔
      Inserted trace session ∨ a = .server (.insertConnection session) := by
  simp [Inserted, eq_comm]

structure MapInv (trace : Trace) (s : System σ) : Prop where
  keys : ∀ id, id ∈ s.keys ↔ (s.server.manager.connections id).isSome = true
  inserted : ∀ session, Inserted trace session → 3 ≤ (s.server.sessions session).rank

theorem mapInv_start (users : List (Password × UserId)) :
    MapInv [] (System.start stats users) where
  keys := by simp [System.start, Revocation.System.start, Manager.new]
  inserted := by simp [Inserted]

theorem MapInv.mem_keys (h : MapInv trace s) {id : ConnectionId} {conn : ActiveConnection}
    (hconn : s.server.manager.connections id = some conn) : id ∈ s.keys := by
  rw [h.keys id, hconn]
  rfl

theorem MapInv.step (h : MapInv trace s) (hcase : StepCase stats s a s' o) :
    MapInv (trace ++ [(a, o)]) s' := by
  have hother (hserver : s'.server.sessions = s.server.sessions)
      (hne : ∀ session, a ≠ .server (.insertConnection session)) :
      ∀ session, Inserted (trace ++ [(a, o)]) session → 3 ≤ (s'.server.sessions session).rank := by
    intro session hinserted
    rw [hserver]
    exact h.inserted session ((inserted_snoc.mp hinserted).resolve_right (hne session))
  cases hcase with
  | server hstep =>
      have hmove := Revocation.step_cases hstep
      refine ⟨mem_keysAfter hmove h.keys, ?_⟩
      intro session hinserted
      rcases inserted_snoc.mp hinserted with hold | heq
      · exact (h.inserted session hold).trans (hmove.rank_le session)
      · cases heq
        exact hmove.rank_insertConnection.2
  | @cancelOne id =>
      have hframe := (Manager.cancelConnection_frame (m := s.server.manager) id).1
      refine ⟨?_, hother rfl (by simp)⟩
      intro id'
      rw [h.keys id']
      simp [hframe]
  | _ => exact ⟨h.keys, hother rfl (by simp)⟩

theorem MapInv.inserted_early {before after : Trace} (h : MapInv trace s)
    (hsplit : trace = before ++ after) {session : SessionId} (hbefore : Inserted before session) :
    3 ≤ (s.server.sessions session).rank := by
  apply h.inserted session
  rw [hsplit]
  simp only [Inserted, List.map_append, List.mem_append]
  exact .inl hbefore

/-- The connections of the sessions `early` have been in the map ever since the last pass or
count began. -/
def Stayed (early : SessionId → Prop) (s : System σ) : Prop :=
  ∀ id conn, s.server.manager.connections id = some conn → early conn.cancelToken → id ∈ s.stayed

section Stayed

variable {early : SessionId → Prop}

theorem entry_of_early {action : Revocation.Action} {server server' : Revocation.System}
    (hearly : ∀ session, early session → 3 ≤ (server.sessions session).rank)
    (hmove : Revocation.StepCase server action server') {id : ConnectionId}
    {conn : ActiveConnection} (hconn : server'.manager.connections id = some conn)
    (hbefore : early conn.cancelToken) : server.manager.connections id = some conn := by
  rcases hmove.entry hconn with hold | rfl
  · exact hold
  · have hrank := hearly _ hbefore
    rw [hmove.rank_insertConnection.1] at hrank
    omega

theorem MapInv.stayed_keys (h : MapInv trace s) (hstayed : s'.stayed = s.keys)
    (hserver : s'.server = s.server) : Stayed early s' := by
  intro id conn hconn _
  rw [hserver] at hconn
  rw [hstayed]
  exact h.mem_keys hconn

theorem Stayed.step (h : Stayed early s)
    (hearly : ∀ session, early session → 3 ≤ (s.server.sessions session).rank)
    (hmap : MapInv trace s) (hcase : StepCase stats s a s' o) : Stayed early s' := by
  cases hcase with
  | @server action server hstep =>
      have hmove := Revocation.step_cases hstep
      intro id conn hconn hbefore
      have hkey : id ∈ s.keysAfter action := by
        rw [mem_keysAfter hmove hmap.keys id, show server.manager.connections id = _ from hconn]
        rfl
      have hold := h id conn (entry_of_early hearly hmove hconn hbefore) hbefore
      exact List.mem_filter.mpr ⟨hold, decide_eq_true hkey⟩
  | cancelStart _ | countStart _ => exact hmap.stayed_keys rfl rfl
  | @cancelOne id seen hmain hkey =>
      intro id' conn hconn hbefore
      have hframe := (Manager.cancelConnection_frame (m := s.server.manager) id).1
      simp only [hframe] at hconn
      exact h id' conn hconn hbefore
  | _ => exact h

end Stayed

/-- What is assumed of the iterator of the map: it comes to every entry that stays in the map
for the whole pass. -/
def IteratorVisits (s : System σ) : Action → Prop
  | .cancelEnd _ => ∀ seen, s.main = .cancelling seen → ∀ id ∈ s.stayed, id ∈ seen
  | _ => True

/-- The pass over the connections, for the sessions `early` that had inserted theirs when it
began. -/
structure PassInv (early : SessionId → Prop) (s : System σ) : Prop where
  started : s.main ≠ .serving
  stayed : Stayed early s
  running : ∀ seen, s.main = .cancelling seen → ∀ id conn,
    s.server.manager.connections id = some conn → id ∈ seen →
      early conn.cancelToken → s.server.manager.cancelled conn.cancelToken = true
  ended : (∀ seen, s.main ≠ .cancelling seen) → ∀ id conn,
    s.server.manager.connections id = some conn →
      early conn.cancelToken → s.server.manager.cancelled conn.cancelToken = true

theorem MapInv.pass_start (h : MapInv trace s) :
    PassInv (Inserted trace) { s with main := .cancelling [], stayed := s.keys } where
  started := by simp
  stayed := h.stayed_keys rfl rfl
  running := by
    rintro seen ⟨⟩ id conn - hmem
    cases hmem
  ended := fun hover => absurd rfl (hover [])

theorem PassInv.later {early : SessionId → Prop} (h : PassInv early s) (hstayed : Stayed early s')
    (hbefore : ∀ seen, s.main ≠ .cancelling seen) (hserving : s'.main ≠ .serving)
    (hafter : ∀ seen, s'.main ≠ .cancelling seen) (hserver : s'.server = s.server) :
    PassInv early s' where
  started := hserving
  stayed := hstayed
  running := fun seen hmain => absurd hmain (hafter seen)
  ended := by
    rw [hserver]
    exact fun _ => h.ended hbefore

theorem PassInv.step {early : SessionId → Prop} (h : PassInv early s)
    (hearly : ∀ session, early session → 3 ≤ (s.server.sessions session).rank)
    (hmap : MapInv trace s) (hvisits : IteratorVisits s a) (hcase : StepCase stats s a s' o) :
    PassInv early s' := by
  have hstayed := h.stayed.step hearly hmap hcase
  cases hcase with
  | @server action server hstep =>
      have hmove := Revocation.step_cases hstep
      refine ⟨h.started, hstayed, ?_, ?_⟩
      · intro seen hmain id conn hconn hmem hbefore
        have hold := entry_of_early hearly hmove hconn hbefore
        exact hmove.cancelled (h.running seen hmain id conn hold hmem hbefore)
      · intro hover id conn hconn hbefore
        have hold := entry_of_early hearly hmove hconn hbefore
        exact hmove.cancelled (h.ended hover id conn hold hbefore)
  | cancelStart hmain => exact absurd hmain h.started
  | @cancelOne id seen hmain hkey =>
      have hframe := (Manager.cancelConnection_frame (m := s.server.manager) id).1
      refine ⟨by simp, hstayed, ?_, fun hover => absurd rfl (hover (seen ++ [id]))⟩
      rintro _ ⟨⟩ id' conn hconn hmem hbefore
      simp only [hframe] at hconn
      apply Manager.cancelled_cancelConnection.mpr
      rcases List.mem_append.mp hmem with hmem | hmem
      · exact .inl (h.running seen hmain id' conn hconn hmem hbefore)
      · rw [List.mem_singleton.mp hmem] at hconn
        exact .inr ⟨conn, hconn, rfl⟩
  | @cancelEnd now seen main hmain hnext =>
      refine ⟨?_, hstayed, ?_, ?_⟩
      · rcases hnext with rfl | ⟨deadline, rfl⟩ <;> simp
      · intro seen' hmain'
        rcases hnext with rfl | ⟨deadline, rfl⟩ <;> cases hmain'
      · intro _ id conn hconn hbefore
        have hseen := hvisits seen hmain id (h.stayed id conn hconn hbefore)
        exact h.running seen hmain id conn hconn hseen hbefore
  | countStart hmain => exact h.later hstayed (by simp [hmain]) (by simp) (by simp) rfl
  | countEnd hmain hnext =>
      rcases hnext with rfl | rfl <;>
        exact h.later hstayed (by simp [hmain]) (by simp) (by simp) rfl
  | flush hmain =>
      refine h.later hstayed (by simp [hmain]) ?_ ?_ rfl
      · simp only [System.flushTraffic]
        split <;> simp
      · simp only [System.flushTraffic]
        split <;> simp
  | submitted hmain | refused hmain | unregister hmain =>
      exact h.later hstayed (by simp [hmain]) (by simp) (by simp) rfl
  | _ => exact ⟨h.started, hstayed, h.running, h.ended⟩

/-- Once the pass of `cancel_all` is over, every connection that was in the map when it began
and still is there has been cancelled, whatever was registered and unregistered meanwhile. -/
theorem cancel_all_reaches {users : List (Password × UserId)} {actions : List Action}
    {before after : Trace}
    (hrun : run (System.step stats) (System.start stats users) actions = some (s, trace))
    (hvisits : Along (System.step stats) IteratorVisits (System.start stats users) actions)
    (hsplit : trace = before ++ (.cancelStart, o) :: after)
    (hover : ∀ seen, s.main ≠ .cancelling seen)
    {session : SessionId} (hinserted : Inserted before session)
    {id : ConnectionId} {user : UserId}
    (hconn : s.server.manager.connections id = some ⟨user, session⟩) :
    s.server.manager.cancelled session = true := by
  have hinv : MapInv trace s ∧ ∀ before o after,
      trace = before ++ (.cancelStart, o) :: after → PassInv (Inserted before) s := by
    refine run_induction_along (P := fun trace s => MapInv trace s ∧ ∀ before o after,
      trace = before ++ (.cancelStart, o) :: after → PassInv (Inserted before) s) hrun hvisits
      ⟨mapInv_start users, by simp⟩ ?_
    rintro trace s a s' o ⟨hmap, hpass⟩ hvisits hstep
    have hcase := stepCase_of_step hstep
    refine ⟨hmap.step hcase, ?_⟩
    intro before o' after hsplit
    rcases snoc_split hsplit with ⟨rfl, heq, -⟩ | ⟨after', -, hold⟩
    · cases heq
      cases hcase with
      | cancelStart _ => exact hmap.pass_start
    · exact (hpass before o' after' hold).step (fun _ => hmap.inserted_early hold) hmap hvisits
        hcase
  exact (hinv.2 before o after hsplit).ended hover id _ hconn hinserted

/-- The session is still there when the pass is over. -/
theorem cancel_all_reaches_session :
    ∃ s trace, run (System.step listStats) (System.start listStats [(password, 7)])
        (shutdownActions.take 11) = some (s, trace) ∧ s.main = .draining 5000 ∧
      s.server.manager.connections 1 = some ⟨7, 0⟩ ∧ s.server.manager.cancelled 0 = true := by
  obtain ⟨s, trace, hrun, hmain, hconn, before, after, hsplit, hinserted⟩ : ∃ s trace,
      run (System.step listStats) (System.start listStats [(password, 7)])
        (shutdownActions.take 11) = some (s, trace) ∧ s.main = .draining 5000 ∧
      s.server.manager.connections 1 = some ⟨7, 0⟩ ∧
      ∃ before after, trace = before ++ (.cancelStart, .silent) :: after ∧ Inserted before 0 :=
    ⟨_, _, rfl, rfl, rfl, [_, _, _, _, _, _, _, _], [_, _], rfl, by simp [Inserted]⟩
  have hvisits : Along (System.step listStats) IteratorVisits
      (System.start listStats [(password, 7)]) (shutdownActions.take 11) := by
    iterate 10 refine along_cons rfl trivial ?_
    refine along_cons rfl ?_ trivial
    rintro seen ⟨⟩ id hid
    exact hid
  exact ⟨s, trace, hrun, hmain, hconn,
    cancel_all_reaches hrun hvisits hsplit (by simp [hmain]) hinserted hconn⟩

end TrojanServer.Shutdown
