import TrojanServer.ConnectionManager
import TrojanServer.FrameDecoding
import TrojanServer.StepMachine

/-!
Sessions of `process_connection` running next to the user-diff callbacks of
`main.rs`.  A session authenticates against the user table and then registers;
an update of the panel replaces the table and starts a callback that kicks the
users it removed.  Every action below is one atomic step of one task.
-/

namespace TrojanServer.Revocation

open TrojanServer.ConnectionManager
open TrojanServer.FrameDecoding
open TrojanServer.Relay

abbrev Password := Octets 56

/-- Sessions are numbered.  A session creates one cancellation token, which has
its number. -/
abbrev SessionId := Nat

inductive Phase where
  | accepted
  | authenticated (user : UserId)
  | allocated (user : UserId) (id : ConnectionId)
  | inserted (user : UserId) (id : ConnectionId)
  | registered (user : UserId) (id : ConnectionId)
  | removing (user : UserId) (id : ConnectionId)
  | closed
  deriving DecidableEq

/-- A run of `on_diff`: the users it has yet to kick, and the `kick_user` in
progress with the ids it has yet to visit, during which it holds the entry of
the user.  `revoked` are the users whose removal it was called for and that no
update has added back. -/
structure Callback where
  queue : List UserId
  kicking : Option (UserId × List ConnectionId)
  revoked : List UserId
  deriving DecidableEq

structure System where
  users : List (Password × UserId)
  manager : Manager
  sessions : SessionId → Phase
  callbacks : List Callback
  registrations : Nat

inductive Action where
  | authenticate (session : SessionId) (password : Password)
  | fetchAdd (session : SessionId)
  | insertConnection (session : SessionId)
  | insertUserConnection (session : SessionId)
  | removeConnection (session : SessionId)
  | removeUserConnection (session : SessionId)
  | update (users : List (Password × UserId)) (removedIds uuidChangedIds : List UserId)
  | kickStart (callback : Nat) (order : List ConnectionId)
  | kickOne (callback : Nat)
  | kickEnd (callback : Nat)

def System.start (users : List (Password × UserId)) : System where
  users := users
  manager := Manager.new
  sessions := fun _ => .accepted
  callbacks := []
  registrations := 0

namespace System

variable (s : System)

def authenticate (password : Password) : Option UserId :=
  (s.users.find? fun entry => entry.1 = password).map Prod.snd

/-- Some `kick_user` holds the entry of the user, which blocks its writers. -/
def guarded (user : UserId) : Bool :=
  s.callbacks.any fun cb => cb.kicking.any fun kick => kick.1 = user

def setPhase (session : SessionId) (phase : Phase) : System :=
  { s with sessions := Function.update s.sessions session phase }

def setCallback (callback : Nat) (cb : Callback) : System :=
  { s with callbacks := s.callbacks.set callback cb }

end System

def Callback.forget (users : List (Password × UserId)) (cb : Callback) : Callback :=
  { cb with revoked := cb.revoked.filter fun user => user ∉ users.map Prod.snd }

/-- The panel replaces the table and then calls `on_diff`. -/
def System.update (s : System) (users : List (Password × UserId))
    (removedIds uuidChangedIds : List UserId) : System :=
  let callback := Callback.mk (removedIds ++ uuidChangedIds) none removedIds
  { s with users := users
           callbacks := (s.callbacks ++ [callback]).map (Callback.forget users) }

def System.step (s : System) : Action → Option (System × Unit)
  | .authenticate session password =>
      match s.sessions session with
      | .accepted =>
          match s.authenticate password with
          | some user => some (s.setPhase session (.authenticated user), ())
          | none => some (s.setPhase session .closed, ())
      | _ => none
  | .fetchAdd session =>
      match s.sessions session with
      | .authenticated user =>
          let r := s.manager.fetchAdd
          some ({ s with manager := r.2, registrations := s.registrations + 1 }.setPhase session
            (.allocated user r.1), ())
      | _ => none
  | .insertConnection session =>
      match s.sessions session with
      | .allocated user id =>
          some ({ s with manager := s.manager.insertConnection id ⟨user, session⟩ }.setPhase
            session (.inserted user id), ())
      | _ => none
  | .insertUserConnection session =>
      match s.sessions session with
      | .inserted user id =>
          if s.guarded user then none
          else
            some ({ s with manager := s.manager.insertUserConnection user id }.setPhase session
              (.registered user id), ())
      | _ => none
  | .removeConnection session =>
      match s.sessions session with
      | .registered _ id =>
          let r := s.manager.removeConnection id
          match r.1 with
          | some conn =>
              some ({ s with manager := r.2 }.setPhase session (.removing conn.userId id), ())
          | none => some ({ s with manager := r.2 }.setPhase session .closed, ())
      | _ => none
  | .removeUserConnection session =>
      match s.sessions session with
      | .removing user id =>
          if s.guarded user then none
          else
            some ({ s with manager := s.manager.removeUserConnection user id }.setPhase session
              .closed, ())
      | _ => none
  | .update users removedIds uuidChangedIds =>
      some (s.update users removedIds uuidChangedIds, ())
  | .kickStart callback order =>
      match s.callbacks[callback]? with
      | some ⟨user :: queue, none, revoked⟩ =>
          match s.manager.userConnections user with
          | none => some (s.setCallback callback ⟨queue, none, revoked⟩, ())
          | some ids =>
              -- the ids are visited in some order
              if order.Nodup ∧ order.toFinset = ids then
                some (s.setCallback callback ⟨queue, some (user, order), revoked⟩, ())
              else none
      | _ => none
  | .kickOne callback =>
      match s.callbacks[callback]? with
      | some ⟨queue, some (user, id :: ids), revoked⟩ =>
          some ({ s with manager := s.manager.cancelConnection id }.setCallback callback
            ⟨queue, some (user, ids), revoked⟩, ())
      | _ => none
  | .kickEnd callback =>
      match s.callbacks[callback]? with
      | some ⟨queue, some (_, []), revoked⟩ =>
          some (s.setCallback callback ⟨queue, none, revoked⟩, ())
      | _ => none

end TrojanServer.Revocation
