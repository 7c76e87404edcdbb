import Mathlib.Data.List.Nodup
import Mathlib.Data.Set.Card
import TrojanServer.ConnectionManager
import TrojanServer.IndexedList
import TrojanServer.StepMachine

namespace TrojanServer.ConnectionIndex

open TrojanServer.ConnectionManager
open TrojanServer.IndexedList
open TrojanServer.Relay
open TrojanServer.StepMachine

inductive Stage where
  | allocated
  | inserted
  | returned
  deriving DecidableEq

/-- A call of `register` that has taken its id, the token it creates, and the last step it has
made. -/
structure RegisterCall where
  user : UserId
  token : Token
  id : ConnectionId
  stage : Stage
  deriving DecidableEq

/-- The calls of `register` are numbered in the order of their `fetch_add`.  `removals`
are the calls of `unregister` that have taken a connection out of the first map and
not yet out of the second. -/
structure System where
  manager : Manager
  registers : List RegisterCall
  removals : List (UserId × ConnectionId)

def System.start : System where
  manager := Manager.new
  registers := []
  removals := []

inductive Action where
  | fetchAdd (user : UserId) (token : Token)
  | insertConnection (call : Nat)
  | insertUserConnection (call : Nat)
  | removeConnection (id : ConnectionId)
  | removeUserConnection (user : UserId) (id : ConnectionId)
  deriving DecidableEq

def System.step (s : System) : Action → Option (System × Unit)
  | .fetchAdd user token =>
      if token ∈ s.registers.map RegisterCall.token then none
      else
        let r := s.manager.fetchAdd
        some ({ s with manager := r.2
                       registers := s.registers ++ [⟨user, token, r.1, .allocated⟩] }, ())
  | .insertConnection call =>
      match s.registers[call]? with
      | some ⟨user, token, id, .allocated⟩ =>
          some ({ s with manager := s.manager.insertConnection id ⟨user, token⟩
                         registers := s.registers.set call ⟨user, token, id, .inserted⟩ }, ())
      | _ => none
  | .insertUserConnection call =>
      match s.registers[call]? with
      | some ⟨user, token, id, .inserted⟩ =>
          some ({ s with manager := s.manager.insertUserConnection user id
                         registers := s.registers.set call ⟨user, token, id, .returned⟩ }, ())
      | _ => none
  | .removeConnection id =>
      -- the id is known once its `register` has returned, and may be unregistered again
      if ∃ call ∈ s.registers, call.id = id ∧ call.stage = .returned then
        let r := s.manager.removeConnection id
        match r.1 with
        | some conn =>
            some ({ s with manager := r.2, removals := s.removals ++ [(conn.userId, id)] }, ())
        | none => some ({ s with manager := r.2 }, ())
      else none
  | .removeUserConnection user id =>
      if (user, id) ∈ s.removals then
        some ({ s with manager := s.manager.removeUserConnection user id
                       removals := s.removals.erase (user, id) }, ())
      else none

inductive StepCase (s : System) : Action → System → Prop
  | fetchAdd {user token} (hfresh : token ∉ s.registers.map RegisterCall.token) :
      StepCase s (.fetchAdd user token)
        { s with manager := s.manager.fetchAdd.2
                 registers := s.registers ++ [⟨user, token, s.manager.nextConnId, .allocated⟩] }
  | insertConnection {call user token id}
      (hcall : s.registers[call]? = some ⟨user, token, id, .allocated⟩) :
      StepCase s (.insertConnection call)
        { s with manager := s.manager.insertConnection id ⟨user, token⟩
                 registers := s.registers.set call ⟨user, token, id, .inserted⟩ }
  | insertUserConnection {call user token id}
      (hcall : s.registers[call]? = some ⟨user, token, id, .inserted⟩) :
      StepCase s (.insertUserConnection call)
        { s with manager := s.manager.insertUserConnection user id
                 registers := s.registers.set call ⟨user, token, id, .returned⟩ }
  | removeConnection {call : Nat} {user token id conn}
      (hcall : s.registers[call]? = some ⟨user, token, id, .returned⟩)
      (hconn : s.manager.connections id = some conn) :
      StepCase s (.removeConnection id)
        { s with manager := (s.manager.removeConnection id).2
                 removals := s.removals ++ [(conn.userId, id)] }
  | removeMissing {id} (hconn : s.manager.connections id = none) :
      StepCase s (.removeConnection id) s
  | removeUserConnection {user id} (hmem : (user, id) ∈ s.removals) :
      StepCase s (.removeUserConnection user id)
        { s with manager := s.manager.removeUserConnection user id
                 removals := s.removals.erase (user, id) }

theorem removeConnection_of_none {m : Manager} {id : ConnectionId}
    (h : m.connections id = none) : (m.removeConnection id).2 = m := by
  have hsame : Function.update m.connections id none = m.connections := by
    rw [← h]
    exact Function.update_eq_self id m.connections
  simp [Manager.removeConnection, hsame]

theorem step_cases {s s' : System} {a : Action} {out : Unit}
    (h : s.step a = some (s', out)) : StepCase s a s' := by
  cases a with
  | fetchAdd user token =>
      obtain ⟨hfresh, h⟩ := Option.ite_none_left_eq_some.mp h
      cases h
      exact .fetchAdd hfresh
  | insertConnection call =>
      simp only [System.step] at h
      split at h
      · rename_i user token id hcall
        cases h
        exact .insertConnection hcall
      · cases h
  | insertUserConnection call =>
      simp only [System.step] at h
      split at h
      · rename_i user token id hcall
        cases h
        exact .insertUserConnection hcall
      · cases h
  | removeConnection id =>
      simp only [System.step] at h
      split at h
      · rename_i hreturned
        obtain ⟨⟨user, token, id', stage⟩, hmem, hid, hstage⟩ := hreturned
        obtain ⟨call, hcall⟩ := List.mem_iff_getElem?.mp hmem
        cases hid
        cases hstage
        split at h
        · rename_i conn hconn
          cases h
          exact .removeConnection hcall hconn
        · rename_i hconn
          cases h
          rw [removeConnection_of_none hconn]
          exact .removeMissing hconn
      · cases h
  | removeUserConnection user id =>
      simp only [System.step] at h
      split at h
      · rename_i hmem
        cases h
        exact .removeUserConnection hmem
      · cases h

/-- The two maps against the calls.  An id is in the index from the last step of its
`register` to the last step of the `unregister` that finds it in the first map. -/
structure IndexInv (s : System) : Prop where
  nextConnId : s.manager.nextConnId = UInt64.ofNat (1 + s.registers.length)
  ids : ∀ (k : Nat) call, s.registers[k]? = some call → call.id = UInt64.ofNat (1 + k)
  tokens : ∀ (j k : Nat) call call', s.registers[j]? = some call → s.registers[k]? = some call' →
    call.token = call'.token → j = k
  entry : ∀ id conn, s.manager.connections id = some conn →
    ∃ (k : Nat) (stage : Stage), stage ≠ .allocated ∧
      s.registers[k]? = some ⟨conn.userId, conn.cancelToken, id, stage⟩
  present : ∀ (k : Nat) user token id, s.registers[k]? = some ⟨user, token, id, .inserted⟩ →
    s.manager.connections id = some ⟨user, token⟩
  removing : ∀ user id, (user, id) ∈ s.removals → s.manager.connections id = none ∧
    ∃ (k : Nat) (token : Token), s.registers[k]? = some ⟨user, token, id, .returned⟩
  removals : s.removals.Nodup
  indexed : ∀ user id, s.manager.Indexed user id ↔
    (∃ (k : Nat) (token : Token), s.registers[k]? = some ⟨user, token, id, .returned⟩ ∧
      s.manager.connections id = some ⟨user, token⟩) ∨ (user, id) ∈ s.removals
  nonempty : ∀ user, s.manager.userConnections user ≠ some ∅

theorem indexInv_start : IndexInv System.start := by
  constructor <;> simp [System.start, Manager.new, Manager.Indexed]

theorem IndexInv.unique {s : System} (h : IndexInv s) (hcount : s.registers.length ≤ 2 ^ 64)
    {j k : Nat} {call call' : RegisterCall} (hj : s.registers[j]? = some call)
    (hk : s.registers[k]? = some call') (hid : call.id = call'.id) : j = k := by
  obtain ⟨hj', -⟩ := List.getElem?_eq_some_iff.mp hj
  obtain ⟨hk', -⟩ := List.getElem?_eq_some_iff.mp hk
  apply ofNat_one_add_inj (by omega) (by omega)
  rw [← h.ids j call hj, ← h.ids k call' hk, hid]

theorem IndexInv.fetchAdd {s : System} (h : IndexInv s) (user : UserId) {token : Token}
    (hfresh : token ∉ s.registers.map RegisterCall.token) :
    IndexInv { s with manager := s.manager.fetchAdd.2
                      registers := s.registers ++
                        [⟨user, token, s.manager.nextConnId, .allocated⟩] } where
  nextConnId := by
    change s.manager.nextConnId + 1 = UInt64.ofNat (1 + (s.registers ++ [_]).length)
    rw [h.nextConnId, List.length_append, ← Nat.add_assoc,
      UInt64.ofNat_add (1 + s.registers.length)]
    rfl
  ids := by
    intro k call hcall
    rcases getElem?_snoc.mp hcall with hcall | ⟨rfl, rfl⟩
    · exact h.ids k call hcall
    · exact h.nextConnId
  tokens := by
    have hother : ∀ (k : Nat) call, s.registers[k]? = some call → call.token ≠ token := by
      rintro k call hcall rfl
      exact hfresh (List.mem_map_of_mem (List.mem_of_getElem? hcall))
    intro j k call call' hj hk htoken
    rcases getElem?_snoc.mp hj with hj | ⟨rfl, rfl⟩
    · rcases getElem?_snoc.mp hk with hk | ⟨rfl, rfl⟩
      · exact h.tokens j k call call' hj hk htoken
      · exact absurd htoken (hother j call hj)
    · rcases getElem?_snoc.mp hk with hk | ⟨rfl, rfl⟩
      · exact absurd htoken.symm (hother k call' hk)
      · rfl
  entry := by
    intro id conn hconn
    obtain ⟨k, stage, hstage, hcall⟩ := h.entry id conn hconn
    exact ⟨k, stage, hstage, getElem?_snoc.mpr (.inl hcall)⟩
  present := by
    intro k user' token' id hcall
    rcases getElem?_snoc.mp hcall with hcall | ⟨-, hnew⟩
    · exact h.present k user' token' id hcall
    · cases hnew
  removing := by
    intro user' id hmem
    obtain ⟨hnone, k, token', hcall⟩ := h.removing user' id hmem
    exact ⟨hnone, k, token', getElem?_snoc.mpr (.inl hcall)⟩
  removals := h.removals
  indexed := by
    intro user' id
    refine (h.indexed user' id).trans ?_
    simp [getElem?_snoc, Manager.fetchAdd]
  nonempty := h.nonempty

section Set

variable {s : System} {call : Nat} {user : UserId} {token : Token} {id : ConnectionId}
  {stage stage' : Stage}

theorem IndexInv.nextConnId_set (h : IndexInv s) (call : Nat) (call' : RegisterCall) :
    s.manager.nextConnId = UInt64.ofNat (1 + (s.registers.set call call').length) := by
  rw [List.length_set]
  exact h.nextConnId

theorem IndexInv.ids_set (h : IndexInv s)
    (hcall : s.registers[call]? = some ⟨user, token, id, stage⟩) :
    ∀ (k : Nat) call', (s.registers.set call ⟨user, token, id, stage'⟩)[k]? = some call' →
      call'.id = UInt64.ofNat (1 + k) := by
  intro k call' hk
  rcases (getElem?_set_of_some hcall).mp hk with ⟨rfl, rfl⟩ | ⟨-, hk⟩
  · exact h.ids k ⟨user, token, id, stage⟩ hcall
  · exact h.ids k call' hk

theorem token_set (hcall : s.registers[call]? = some ⟨user, token, id, stage⟩) {k : Nat}
    {call' : RegisterCall}
    (hk : (s.registers.set call ⟨user, token, id, stage'⟩)[k]? = some call') :
    ∃ call₀, s.registers[k]? = some call₀ ∧ call₀.token = call'.token := by
  rcases (getElem?_set_of_some hcall).mp hk with ⟨rfl, rfl⟩ | ⟨-, hk⟩
  · exact ⟨_, hcall, rfl⟩
  · exact ⟨call', hk, rfl⟩

theorem IndexInv.tokens_set (h : IndexInv s)
    (hcall : s.registers[call]? = some ⟨user, token, id, stage⟩) :
    ∀ (j k : Nat) call₁ call₂,
      (s.registers.set call ⟨user, token, id, stage'⟩)[j]? = some call₁ →
      (s.registers.set call ⟨user, token, id, stage'⟩)[k]? = some call₂ →
      call₁.token = call₂.token → j = k := by
  intro j k call₁ call₂ hj hk htoken
  obtain ⟨first, hfirst, htoken₁⟩ := token_set hcall hj
  obtain ⟨second, hsecond, htoken₂⟩ := token_set hcall hk
  exact h.tokens j k first second hfirst hsecond (by rw [htoken₁, htoken₂, htoken])

end Set

theorem IndexInv.insertConnection {s : System} (h : IndexInv s)
    (hcount : s.registers.length ≤ 2 ^ 64) {call : Nat} {user : UserId} {token : Token}
    {id : ConnectionId} (hcall : s.registers[call]? = some ⟨user, token, id, .allocated⟩) :
    IndexInv { s with manager := s.manager.insertConnection id ⟨user, token⟩
                      registers := s.registers.set call ⟨user, token, id, .inserted⟩ } := by
  have hother : ∀ (k : Nat) user' token' id' stage,
      s.registers[k]? = some ⟨user', token', id', stage⟩ → k ≠ call → id' ≠ id := by
    rintro k user' token' id' stage hk hne rfl
    exact hne (h.unique hcount hk hcall rfl)
  refine ⟨h.nextConnId_set _ _, h.ids_set hcall, h.tokens_set hcall, ?_, ?_, ?_, h.removals, ?_,
    h.nonempty⟩
  · intro id' conn hconn
    rcases Manager.of_insertConnection hconn with ⟨rfl, rfl⟩ | ⟨hid, hold⟩
    · exact ⟨call, .inserted, by simp, (getElem?_set_of_some hcall).mpr (.inl ⟨rfl, rfl⟩)⟩
    · obtain ⟨k, stage, hstage, hk⟩ := h.entry id' conn hold
      refine ⟨k, stage, hstage, (getElem?_set_of_some hcall).mpr (.inr ⟨?_, hk⟩)⟩
      rintro rfl
      rw [hcall] at hk
      cases hk
      exact hid rfl
  · intro k user' token' id' hk
    rcases (getElem?_set_of_some hcall).mp hk with ⟨rfl, hnew⟩ | ⟨hne, hk⟩
    · cases hnew
      simp [Manager.insertConnection]
    · simpa [Manager.insertConnection, hother k user' token' id' _ hk hne] using
        h.present k user' token' id' hk
  · intro user' id' hmem
    obtain ⟨hnone, k, token', hk⟩ := h.removing user' id' hmem
    have hne : k ≠ call := by
      rintro rfl
      simp [hcall] at hk
    refine ⟨?_, k, token', (getElem?_set_of_some hcall).mpr (.inr ⟨hne, hk⟩)⟩
    simpa [Manager.insertConnection, hother k user' token' id' _ hk hne] using hnone
  · intro user' id'
    refine (h.indexed user' id').trans (or_congr_left (exists₂_congr fun k token' => ?_))
    rw [getElem?_set_of_some hcall]
    rcases eq_or_ne k call with rfl | hne
    · simp [hcall]
    · simp only [ne_eq, hne, false_and, not_false_eq_true, true_and, false_or,
        Manager.insertConnection]
      refine and_congr_right fun hk => ?_
      rw [Function.update_of_ne (hother k user' token' id' _ hk hne)]

theorem IndexInv.insertUserConnection {s : System} (h : IndexInv s) {call : Nat} {user : UserId}
    {token : Token} {id : ConnectionId}
    (hcall : s.registers[call]? = some ⟨user, token, id, .inserted⟩) :
    IndexInv { s with manager := s.manager.insertUserConnection user id
                      registers := s.registers.set call ⟨user, token, id, .returned⟩ } := by
  have hpresent := h.present call user token id hcall
  refine ⟨h.nextConnId_set _ _, h.ids_set hcall, h.tokens_set hcall, ?_, ?_, ?_, h.removals, ?_,
    ?_⟩
  · intro id' conn hconn
    obtain ⟨k, stage, hstage, hk⟩ := h.entry id' conn hconn
    rcases eq_or_ne k call with rfl | hne
    · rw [hcall] at hk
      cases hk
      exact ⟨k, .returned, by simp, (getElem?_set_of_some hcall).mpr (.inl ⟨rfl, rfl⟩)⟩
    · exact ⟨k, stage, hstage, (getElem?_set_of_some hcall).mpr (.inr ⟨hne, hk⟩)⟩
  · intro k user' token' id' hk
    rcases (getElem?_set_of_some hcall).mp hk with ⟨-, hnew⟩ | ⟨-, hk⟩
    · cases hnew
    · exact h.present k user' token' id' hk
  · intro user' id' hmem
    obtain ⟨hnone, k, token', hk⟩ := h.removing user' id' hmem
    refine ⟨hnone, k, token', (getElem?_set_of_some hcall).mpr (.inr ⟨?_, hk⟩)⟩
    rintro rfl
    simp [hcall] at hk
  · intro user' id'
    rw [Manager.indexed_insertUserConnection, h.indexed user' id']
    constructor
    · rintro ((⟨k, token', hk, hconn⟩ | hmem) | ⟨rfl, rfl⟩)
      · refine .inl ⟨k, token', (getElem?_set_of_some hcall).mpr (.inr ⟨?_, hk⟩), hconn⟩
        rintro rfl
        simp [hcall] at hk
      · exact .inr hmem
      · exact .inl ⟨call, token, (getElem?_set_of_some hcall).mpr (.inl ⟨rfl, rfl⟩), hpresent⟩
    · rintro (⟨k, token', hk, hconn⟩ | hmem)
      · rcases (getElem?_set_of_some hcall).mp hk with ⟨-, hnew⟩ | ⟨-, hk⟩
        · cases hnew
          exact .inr ⟨rfl, rfl⟩
        · exact .inl (.inl ⟨k, token', hk, hconn⟩)
      · exact .inl (.inr hmem)
  · exact Manager.insertUserConnection_ne_empty h.nonempty user id

/-- The entry of a call that has returned is the one that the call made. -/
theorem IndexInv.conn_eq {s : System} (h : IndexInv s) (hcount : s.registers.length ≤ 2 ^ 64)
    {call : Nat} {user : UserId} {token : Token} {id : ConnectionId} {stage : Stage}
    {conn : ActiveConnection} (hcall : s.registers[call]? = some ⟨user, token, id, stage⟩)
    (hconn : s.manager.connections id = some conn) : conn = ⟨user, token⟩ := by
  obtain ⟨k, stage', -, hentry⟩ := h.entry id conn hconn
  have hsame := h.unique hcount hentry hcall rfl
  rw [hsame, hcall] at hentry
  obtain ⟨user', token'⟩ := conn
  cases hentry
  rfl

theorem IndexInv.removeConnection {s : System} (h : IndexInv s)
    (hcount : s.registers.length ≤ 2 ^ 64) {call : Nat} {user : UserId} {token : Token}
    {id : ConnectionId} {conn : ActiveConnection}
    (hcall : s.registers[call]? = some ⟨user, token, id, .returned⟩)
    (hconn : s.manager.connections id = some conn) :
    IndexInv { s with manager := (s.manager.removeConnection id).2
                      removals := s.removals ++ [(conn.userId, id)] } := by
  obtain rfl := h.conn_eq hcount hcall hconn
  have hfresh : (user, id) ∉ s.removals := by
    intro hmem
    simp [(h.removing user id hmem).1] at hconn
  refine ⟨h.nextConnId, h.ids, h.tokens, ?_, ?_, ?_, ?_, ?_, h.nonempty⟩
  · intro id' conn' hconn'
    exact h.entry id' conn' (Manager.of_removeConnection hconn')
  · intro k user' token' id' hk
    have hid : id' ≠ id := by
      rintro rfl
      cases h.unique hcount hk hcall rfl
      simp [hcall] at hk
    simpa [Manager.removeConnection, hid] using h.present k user' token' id' hk
  · intro user' id' hmem
    rcases List.mem_append.mp hmem with hmem | hmem
    · obtain ⟨hnone, hk⟩ := h.removing user' id' hmem
      refine ⟨?_, hk⟩
      rcases eq_or_ne id' id with rfl | hid
      · simp [Manager.removeConnection]
      · simpa [Manager.removeConnection, hid] using hnone
    · simp only [List.mem_singleton, Prod.mk.injEq] at hmem
      obtain ⟨rfl, rfl⟩ := hmem
      exact ⟨by simp [Manager.removeConnection], call, token, hcall⟩
  · refine List.nodup_append.mpr ⟨h.removals, by simp, ?_⟩
    rintro pair hold _ (_ | ⟨_, ⟨⟩⟩) rfl
    exact hfresh hold
  · intro user' id'
    refine (h.indexed user' id').trans ?_
    rcases eq_or_ne id' id with rfl | hid
    · simp only [hconn, Manager.removeConnection, Function.update_self, List.mem_append,
        List.mem_singleton, Prod.mk.injEq, and_true, Option.some.injEq,
        ActiveConnection.mk.injEq, reduceCtorEq, and_false, exists_false, false_or]
      constructor
      · rintro (⟨_, _, -, rfl, -⟩ | hmem)
        · exact .inr rfl
        · exact .inl hmem
      · rintro (hmem | rfl)
        · exact .inr hmem
        · exact .inl ⟨call, token, hcall, rfl, rfl⟩
    · simp [Manager.removeConnection, hid]

theorem IndexInv.removeUserConnection {s : System} (h : IndexInv s) {user : UserId}
    {id : ConnectionId} (hmem : (user, id) ∈ s.removals) :
    IndexInv { s with manager := s.manager.removeUserConnection user id
                      removals := s.removals.erase (user, id) } := by
  obtain ⟨hconnections, -, hnext⟩ := Manager.removeUserConnection_frame (m := s.manager) user id
  have hnone := (h.removing user id hmem).1
  refine ⟨hnext.trans h.nextConnId, h.ids, h.tokens, ?_, ?_, ?_, h.removals.erase _, ?_, ?_⟩
  · exact hconnections ▸ h.entry
  · exact hconnections ▸ h.present
  · intro user' id' hmem'
    rw [hconnections]
    exact h.removing user' id' (List.mem_of_mem_erase hmem')
  · intro user' id'
    rw [hconnections, h.removals.mem_erase_iff]
    constructor
    · intro hindexed
      obtain ⟨hold, hne⟩ := Manager.of_indexed_removeUserConnection hindexed
      rcases (h.indexed user' id').mp hold with hlive | hpending
      · exact .inl hlive
      · exact .inr ⟨by simpa using hne, hpending⟩
    · intro hstill
      apply Manager.indexed_removeUserConnection
      · rcases hstill with hlive | ⟨-, hpending⟩
        · exact (h.indexed user' id').mpr (.inl hlive)
        · exact (h.indexed user' id').mpr (.inr hpending)
      · rintro ⟨rfl, rfl⟩
        rcases hstill with ⟨k, token, -, hconn⟩ | ⟨hne, -⟩
        · simp [hnone] at hconn
        · exact hne rfl
  · exact Manager.removeUserConnection_ne_empty h.nonempty user id

theorem length_le_of_step {s s' : System} {a : Action} (hcase : StepCase s a s') :
    s.registers.length ≤ s'.registers.length := by
  cases hcase <;> simp

theorem IndexInv.step {s s' : System} {a : Action} (h : IndexInv s) (hcase : StepCase s a s')
    (hcount : s.registers.length ≤ 2 ^ 64) : IndexInv s' := by
  cases hcase with
  | fetchAdd hfresh => exact h.fetchAdd _ hfresh
  | insertConnection hcall => exact h.insertConnection hcount hcall
  | insertUserConnection hcall => exact h.insertUserConnection hcall
  | removeConnection hcall hconn => exact h.removeConnection hcount hcall hconn
  | removeMissing _ => exact h
  | removeUserConnection hmem => exact h.removeUserConnection hmem

theorem indexInv_run {actions : List Action} {s : System} {trace : List (Action × Unit)}
    (hrun : run System.step System.start actions = some (s, trace))
    (hcount : s.registers.length ≤ 2 ^ 64) : IndexInv s := by
  refine run_induction (P := fun _ s => s.registers.length ≤ 2 ^ 64 → IndexInv s) hrun
    (fun _ => indexInv_start) ?_ hcount
  intro _ s a s' _ hinv hstep hcount'
  have hcase := step_cases hstep
  have hle := (length_le_of_step hcase).trans hcount'
  exact (hinv hle).step hcase hle

/-- No call of `register` or `unregister` is in progress. -/
def System.Quiescent (s : System) : Prop :=
  (∀ call ∈ s.registers, call.stage = .returned) ∧ s.removals = []

/-- The connection is in the map and belongs to the user. -/
def Live (m : Manager) (user : UserId) (id : ConnectionId) : Prop :=
  ∃ conn, m.connections id = some conn ∧ conn.userId = user

theorem IndexInv.live_iff_indexed {s : System} (h : IndexInv s) (hquiet : s.Quiescent)
    (user : UserId) (id : ConnectionId) : Live s.manager user id ↔ s.manager.Indexed user id := by
  rw [h.indexed user id, hquiet.2]
  constructor
  · rintro ⟨conn, hconn, rfl⟩
    obtain ⟨k, stage, -, hcall⟩ := h.entry id conn hconn
    have hstage := hquiet.1 _ (List.mem_of_getElem? hcall)
    cases hstage
    exact .inl ⟨k, conn.cancelToken, hcall, hconn⟩
  · rintro (⟨k, token, -, hconn⟩ | hmem)
    · exact ⟨_, hconn, rfl⟩
    · cases hmem

theorem IndexInv.user_of_token {s : System} (h : IndexInv s) {id id' : ConnectionId}
    {conn conn' : ActiveConnection} (hconn : s.manager.connections id = some conn)
    (hconn' : s.manager.connections id' = some conn')
    (htoken : conn.cancelToken = conn'.cancelToken) : conn.userId = conn'.userId := by
  obtain ⟨j, _, -, hcall⟩ := h.entry id conn hconn
  obtain ⟨k, _, -, hcall'⟩ := h.entry id' conn' hconn'
  rw [h.tokens j k _ _ hcall hcall' htoken, hcall'] at hcall
  simp only [Option.some.injEq, RegisterCall.mk.injEq] at hcall
  exact hcall.1.symm

theorem IndexInv.mem_order_iff {s : System} (h : IndexInv s) (hquiet : s.Quiescent)
    {user : UserId} {order : List ConnectionId} (horder : s.manager.Enumerates user order)
    {ids : Finset ConnectionId} (hids : s.manager.userConnections user = some ids)
    (id : ConnectionId) : id ∈ order ↔ Live s.manager user id := by
  rw [h.live_iff_indexed hquiet, ← List.mem_toFinset, horder.2 ids hids]
  simp [Manager.Indexed, hids]

theorem IndexInv.cancelled_kickUser {s : System} (h : IndexInv s) (hquiet : s.Quiescent)
    {user : UserId} {order : List ConnectionId} (horder : s.manager.Enumerates user order)
    (token : Token) : (s.manager.kickUser user order).2.cancelled token = true ↔
      s.manager.cancelled token = true ∨ ∃ id conn, s.manager.connections id = some conn ∧
        conn.userId = user ∧ conn.cancelToken = token := by
  cases hids : s.manager.userConnections user with
  | none =>
      simp only [Manager.kickUser, hids, iff_self_or]
      rintro ⟨id, conn, hconn, huser, -⟩
      obtain ⟨ids, hsome, -⟩ := (h.live_iff_indexed hquiet user id).mp ⟨conn, hconn, huser⟩
      simp [hids] at hsome
  | some ids =>
      simp only [Manager.kickUser, hids, Manager.cancelled_kickConnections]
      refine or_congr_right (exists_congr fun id => ?_)
      rw [h.mem_order_iff hquiet horder hids id]
      constructor
      · rintro ⟨⟨conn, hconn, huser⟩, conn', hconn', htoken⟩
        rw [hconn] at hconn'
        cases hconn'
        exact ⟨conn, hconn, huser, htoken⟩
      · rintro ⟨conn, hconn, huser, htoken⟩
        exact ⟨⟨conn, hconn, huser⟩, conn, hconn, htoken⟩

theorem IndexInv.fst_kickUser {s : System} (h : IndexInv s) (hquiet : s.Quiescent)
    {user : UserId} {order : List ConnectionId} (horder : s.manager.Enumerates user order) :
    (s.manager.kickUser user order).1 = {id | Live s.manager user id}.ncard := by
  cases hids : s.manager.userConnections user with
  | none =>
      have hempty : {id | Live s.manager user id} = ∅ := by
        apply Set.eq_empty_of_forall_notMem
        intro id hlive
        obtain ⟨ids, hsome, -⟩ := (h.live_iff_indexed hquiet user id).mp hlive
        simp [hids] at hsome
      simp [Manager.kickUser, hids, hempty]
  | some ids =>
      have hset : {id | Live s.manager user id} = (order.toFinset : Set ConnectionId) := by
        ext id
        simpa using (h.mem_order_iff hquiet horder hids id).symm
      have hall : ∀ id ∈ order, (s.manager.connections id).isSome := by
        intro id hmem
        obtain ⟨conn, hconn, -⟩ := (h.mem_order_iff hquiet horder hids id).mp hmem
        simp [hconn]
      rw [hset, Set.ncard_coe_finset, List.toFinset_card_of_nodup horder.1]
      simp only [Manager.kickUser, hids, Manager.fst_kickConnections]
      rw [List.filter_eq_self.mpr hall]

theorem IndexInv.ids_nodup {s : System} (h : IndexInv s)
    (hcount : s.registers.length ≤ 2 ^ 64) : (s.registers.map RegisterCall.id).Nodup := by
  apply List.nodup_iff_getElem?_ne_getElem?.mpr
  intro j k hjk hk heq
  rw [List.length_map] at hk
  have hj : s.registers[j]? = some (s.registers[j]) := List.getElem?_eq_getElem _
  have hk' : s.registers[k]? = some (s.registers[k]) := List.getElem?_eq_getElem _
  simp only [List.getElem?_map, hj, hk', Option.map_some, Option.some.injEq] at heq
  exact hjk.ne (h.unique hcount hj hk' heq)

/-- Whatever the interleaving of the calls: where none is in progress the two maps
agree, no entry of the index is empty, no id was given out twice, and `kick_user`
cancels the tokens of the live connections of its user, those of no other user, and
returns how many there are. -/
theorem index_consistent {actions : List Action} {s : System} {trace : List (Action × Unit)}
    (hrun : run System.step System.start actions = some (s, trace))
    (hcount : s.registers.length < 2 ^ 64) (hquiet : s.Quiescent) :
    (∀ id user, Live s.manager user id ↔ s.manager.Indexed user id) ∧
      (∀ user, s.manager.userConnections user ≠ some ∅) ∧
      (s.registers.map RegisterCall.id).Nodup ∧
      ∀ user order, s.manager.Enumerates user order →
        (∀ token, (s.manager.kickUser user order).2.cancelled token = true ↔
          s.manager.cancelled token = true ∨ ∃ id conn,
            s.manager.connections id = some conn ∧ conn.userId = user ∧
              conn.cancelToken = token) ∧
        (∀ id conn, s.manager.connections id = some conn → conn.userId ≠ user →
          (s.manager.kickUser user order).2.cancelled conn.cancelToken =
            s.manager.cancelled conn.cancelToken) ∧
        (s.manager.kickUser user order).1 = {id | Live s.manager user id}.ncard := by
  have h := indexInv_run hrun hcount.le
  refine ⟨fun id user => h.live_iff_indexed hquiet user id, h.nonempty, h.ids_nodup hcount.le, ?_⟩
  intro user order horder
  refine ⟨h.cancelled_kickUser hquiet horder, ?_, h.fst_kickUser hquiet horder⟩
  intro id conn hconn huser
  rw [Bool.eq_iff_iff, h.cancelled_kickUser hquiet horder]
  constructor
  · rintro (hbefore | ⟨id', conn', hconn', rfl, htoken⟩)
    · exact hbefore
    · exact absurd (h.user_of_token hconn hconn' htoken.symm) huser
  · exact .inl

/-- Two overlapping `register` calls of one user, one of another, and two `unregister`
calls of the same id. -/
def overlapping : List Action :=
  [.fetchAdd 7 0, .fetchAdd 7 1, .insertConnection 1, .insertConnection 0,
    .insertUserConnection 0, .removeConnection 1, .removeConnection 1, .fetchAdd 8 2,
    .insertUserConnection 1, .removeUserConnection 7 1, .insertConnection 2,
    .insertUserConnection 2]

theorem index_consistent_overlapping : ∃ s trace,
    run System.step System.start overlapping = some (s, trace) ∧
      s.registers.length < 2 ^ 64 ∧ s.Quiescent ∧ s.manager.Enumerates 7 [2] ∧
      (s.manager.kickUser 7 [2]).1 = 1 ∧ {id | Live s.manager 7 id}.ncard = 1 := by
  obtain ⟨s, trace, hrun, hcount, hquiet, hentry, hkicked⟩ : ∃ s trace,
      run System.step System.start overlapping = some (s, trace) ∧
        s.registers.length < 2 ^ 64 ∧
        ((∀ call ∈ s.registers, call.stage = .returned) ∧ s.removals = []) ∧
        s.manager.userConnections 7 = some {2} ∧ (s.manager.kickUser 7 [2]).1 = 1 :=
    ⟨_, _, rfl, by decide, by decide, by decide, by decide⟩
  have horder : s.manager.Enumerates 7 [2] := by
    refine ⟨by simp, ?_⟩
    intro ids hids
    rw [hentry] at hids
    cases hids
    rfl
  obtain ⟨-, -, -, hkick⟩ := index_consistent hrun hcount hquiet
  obtain ⟨-, -, hlive⟩ := hkick 7 [2] horder
  exact ⟨s, trace, hrun, hcount, hquiet, horder, hkicked, hlive ▸ hkicked⟩

end TrojanServer.ConnectionIndex
