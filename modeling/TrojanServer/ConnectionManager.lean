import Mathlib.Algebra.GroupWithZero.Nat
import Mathlib.Data.Finset.Basic
import Mathlib.Logic.Function.Basic
import TrojanServer.Relay

/-!
`core/connection.rs`, one definition per operation on an atomic counter or a
concurrent map.  Each is one indivisible step, with other tasks in between:
`register` is `fetchAdd`, `insertConnection` and `insertUserConnection`,
`unregister` is `removeConnection` and `removeUserConnection`, and a round of the
loop of `kick_user` is `cancelConnection`.
-/

namespace TrojanServer.ConnectionManager

open TrojanServer.Relay

abbrev ConnectionId := UInt64

abbrev Token := Nat

structure ActiveConnection where
  userId : UserId
  cancelToken : Token
  deriving Repr, DecidableEq

/-- The shared state of the manager, and which tokens have been cancelled. -/
structure Manager where
  nextConnId : ConnectionId
  connections : ConnectionId → Option ActiveConnection
  userConnections : UserId → Option (Finset ConnectionId)
  cancelled : Token → Bool

def Manager.new : Manager where
  nextConnId := 1
  connections := fun _ => none
  userConnections := fun _ => none
  cancelled := fun _ => false

namespace Manager

variable (m : Manager)

def fetchAdd : ConnectionId × Manager :=
  (m.nextConnId, { m with nextConnId := m.nextConnId + 1 })

def insertConnection (id : ConnectionId) (conn : ActiveConnection) : Manager :=
  { m with connections := Function.update m.connections id (some conn) }

def insertUserConnection (user : UserId) (id : ConnectionId) : Manager :=
  let ids := (m.userConnections user).getD ∅
  { m with userConnections := Function.update m.userConnections user (some (insert id ids)) }

def removeConnection (id : ConnectionId) : Option ActiveConnection × Manager :=
  (m.connections id, { m with connections := Function.update m.connections id none })

/-- Second step of `unregister`: `remove_if_mut` takes the id out of the set and
deletes the entry if the set is then empty. -/
def removeUserConnection (user : UserId) (id : ConnectionId) : Manager :=
  match m.userConnections user with
  | none => m
  | some ids =>
      let left := if ids.erase id = ∅ then none else some (ids.erase id)
      { m with userConnections := Function.update m.userConnections user left }

def cancelConnection (id : ConnectionId) : Manager :=
  match m.connections id with
  | none => m
  | some conn => { m with cancelled := Function.update m.cancelled conn.cancelToken true }

/-- The loop of `kick_user` over the ids of the entry, in the order in which the
iterator gives them, and the number of tokens it cancelled. -/
def kickConnections (m : Manager) : List ConnectionId → Nat × Manager
  | [] => (0, m)
  | id :: ids =>
      match m.connections id with
      | none => kickConnections m ids
      | some _ =>
          let r := kickConnections (m.cancelConnection id) ids
          (r.1 + 1, r.2)

def kickUser (user : UserId) (order : List ConnectionId) : Nat × Manager :=
  match m.userConnections user with
  | none => (0, m)
  | some _ => m.kickConnections order

/-- An order in which the iterator over the entry of a user may give its ids. -/
def Enumerates (user : UserId) (order : List ConnectionId) : Prop :=
  order.Nodup ∧ ∀ ids, m.userConnections user = some ids → order.toFinset = ids

def Indexed (user : UserId) (id : ConnectionId) : Prop :=
  ∃ ids, m.userConnections user = some ids ∧ id ∈ ids

variable {m}

theorem indexed_insertUserConnection {user user' : UserId} {id id' : ConnectionId} :
    (m.insertUserConnection user id).Indexed user' id' ↔
      m.Indexed user' id' ∨ (user' = user ∧ id' = id) := by
  unfold Indexed insertUserConnection
  by_cases huser : user' = user
  · subst huser
    cases m.userConnections user' <;> simp [or_comm]
  · simp [huser]

theorem indexed_removeUserConnection {user user' : UserId} {id id' : ConnectionId}
    (h : m.Indexed user' id') (hne : ¬ (user' = user ∧ id' = id)) :
    (m.removeUserConnection user id).Indexed user' id' := by
  obtain ⟨ids, hids, hmem⟩ := h
  unfold removeUserConnection
  by_cases huser : user' = user
  · subst huser
    have hkept : id' ∈ ids.erase id :=
      Finset.mem_erase.mpr ⟨fun heq => hne ⟨rfl, heq⟩, hmem⟩
    have hsome : ids.erase id ≠ ∅ := Finset.ne_empty_of_mem hkept
    rw [hids]
    exact ⟨ids.erase id, by simp [hsome], hkept⟩
  · refine ⟨ids, ?_, hmem⟩
    split
    · exact hids
    · simpa [huser] using hids

theorem of_indexed_removeUserConnection {user user' : UserId} {id id' : ConnectionId}
    (h : (m.removeUserConnection user id).Indexed user' id') :
    m.Indexed user' id' ∧ ¬ (user' = user ∧ id' = id) := by
  obtain ⟨ids, hids, hmem⟩ := h
  unfold removeUserConnection at hids
  split at hids
  · rename_i hnone
    refine ⟨⟨ids, hids, hmem⟩, ?_⟩
    rintro ⟨rfl, -⟩
    simp [hnone] at hids
  · rename_i old hold
    rcases eq_or_ne user' user with rfl | huser
    · simp only [Function.update_self, Option.ite_none_left_eq_some, Option.some.injEq] at hids
      obtain ⟨-, rfl⟩ := hids
      obtain ⟨hne, hmem⟩ := Finset.mem_erase.mp hmem
      exact ⟨⟨old, hold, hmem⟩, fun h => hne h.2⟩
    · exact ⟨⟨ids, by simpa [huser] using hids, hmem⟩, fun h => huser h.1⟩

theorem insertUserConnection_ne_empty (h : ∀ user, m.userConnections user ≠ some ∅)
    (user : UserId) (id : ConnectionId) (user' : UserId) :
    (m.insertUserConnection user id).userConnections user' ≠ some ∅ := by
  rcases eq_or_ne user' user with rfl | huser
  · simp [insertUserConnection]
  · simpa [insertUserConnection, huser] using h user'

theorem removeUserConnection_ne_empty (h : ∀ user, m.userConnections user ≠ some ∅)
    (user : UserId) (id : ConnectionId) (user' : UserId) :
    (m.removeUserConnection user id).userConnections user' ≠ some ∅ := by
  unfold removeUserConnection
  split
  · exact h user'
  · rcases eq_or_ne user' user with rfl | huser
    · simp
    · simpa [huser] using h user'

theorem of_insertConnection {id id' : ConnectionId} {conn conn' : ActiveConnection}
    (h : (m.insertConnection id conn).connections id' = some conn') :
    id' = id ∧ conn' = conn ∨ id' ≠ id ∧ m.connections id' = some conn' := by
  by_cases hid : id' = id
  · subst hid
    simp only [insertConnection, Function.update_self, Option.some.injEq] at h
    exact .inl ⟨rfl, h.symm⟩
  · exact .inr ⟨hid, by simpa [insertConnection, hid] using h⟩

theorem of_removeConnection {id id' : ConnectionId} {conn : ActiveConnection}
    (h : (m.removeConnection id).2.connections id' = some conn) :
    m.connections id' = some conn := by
  by_cases hid : id' = id
  · simp [removeConnection, hid] at h
  · simpa [removeConnection, hid] using h

theorem removeUserConnection_frame (user : UserId) (id : ConnectionId) :
    (m.removeUserConnection user id).connections = m.connections ∧
      (m.removeUserConnection user id).cancelled = m.cancelled ∧
      (m.removeUserConnection user id).nextConnId = m.nextConnId := by
  unfold removeUserConnection
  split <;> simp

theorem cancelConnection_frame (id : ConnectionId) :
    (m.cancelConnection id).connections = m.connections ∧
      (m.cancelConnection id).userConnections = m.userConnections ∧
      (m.cancelConnection id).nextConnId = m.nextConnId := by
  unfold cancelConnection
  split <;> simp

theorem cancelled_cancelConnection {id : ConnectionId} {token : Token} :
    (m.cancelConnection id).cancelled token = true ↔
      m.cancelled token = true ∨ ∃ conn, m.connections id = some conn ∧
        conn.cancelToken = token := by
  unfold cancelConnection
  cases m.connections id with
  | none => simp
  | some conn =>
      by_cases htoken : token = conn.cancelToken
      · simp [htoken]
      · simp [htoken, Ne.symm htoken]

theorem cancelled_kickConnections {ids : List ConnectionId} {token : Token} :
    (m.kickConnections ids).2.cancelled token = true ↔
      m.cancelled token = true ∨ ∃ id ∈ ids, ∃ conn, m.connections id = some conn ∧
        conn.cancelToken = token := by
  induction ids generalizing m with
  | nil => simp [kickConnections]
  | cons id ids ih =>
      cases hconn : m.connections id with
      | none => simp [kickConnections, hconn, ih]
      | some conn =>
          simp [kickConnections, hconn, ih, cancelled_cancelConnection,
            (cancelConnection_frame (m := m) id).1, or_assoc]

theorem fst_kickConnections (ids : List ConnectionId) :
    (m.kickConnections ids).1 = (ids.filter fun id => (m.connections id).isSome).length := by
  induction ids generalizing m with
  | nil => rfl
  | cons id ids ih =>
      cases hconn : m.connections id with
      | none => simp [kickConnections, hconn, ih]
      | some conn =>
          simp [kickConnections, hconn, ih, (cancelConnection_frame (m := m) id).1]

end Manager

/-- The ids of fewer than `2 ^ 64` registrations are distinct. -/
theorem ofNat_one_add_inj {j k : Nat} (hj : j < 2 ^ 64) (hk : k < 2 ^ 64)
    (h : UInt64.ofNat (1 + j) = UInt64.ofNat (1 + k)) : j = k := by
  have hnat := congrArg UInt64.toNat h
  simp only [UInt64.toNat_ofNat'] at hnat
  omega

end TrojanServer.ConnectionManager
