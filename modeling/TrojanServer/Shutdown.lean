import TrojanServer.RevocationSafety

/-!
The graceful shutdown of `main.rs` next to the sessions that are still running: the pass of
`cancel_all` over the connections, the loop that counts them until none is left, `flush_traffic`,
and the unregistration of the node.  The sessions and the callbacks that kick them go on taking
their own steps in between.  The traffic collector is of the panel's crate and a parameter, with
`StatsApi.Lawful` for what is assumed of it; other callers, such as the panel's background task,
may take everything out of it and put anything back at any time.
-/

namespace TrojanServer.Shutdown

open TrojanServer.ConnectionManager
open TrojanServer.Relay
open TrojanServer.Revocation
open TrojanServer.StepMachine

/-- The counters of one user, in a snapshot of the collector and in a report. -/
structure UserTraffic where
  userId : UserId
  upload : Nat
  download : Nat
  requestCount : Nat
  deriving Repr, DecidableEq

inductive Counter where
  | upload
  | download
  | requests
  deriving Repr, DecidableEq

def UserTraffic.amount (t : UserTraffic) : Counter → Nat
  | .upload => t.upload
  | .download => t.download
  | .requests => t.requestCount

def total (traffic : List UserTraffic) (user : UserId) (counter : Counter) : Nat :=
  ((traffic.filter fun t => t.userId = user).map fun t => t.amount counter).sum

@[simp] theorem total_nil (user : UserId) (counter : Counter) : total [] user counter = 0 := rfl

@[simp] theorem total_append (traffic traffic' : List UserTraffic) (user : UserId)
    (counter : Counter) :
    total (traffic ++ traffic') user counter =
      total traffic user counter + total traffic' user counter := by
  simp [total]

/-- The calls of the trait `StatsCollector`. -/
inductive StatsCall where
  | recordRequest
  | recordUpload (bytes : Nat)
  | recordDownload (bytes : Nat)
  deriving Repr, DecidableEq

def StatsCall.traffic (user : UserId) : StatsCall → UserTraffic
  | .recordRequest => ⟨user, 0, 0, 1⟩
  | .recordUpload bytes => ⟨user, bytes, 0, 0⟩
  | .recordDownload bytes => ⟨user, 0, bytes, 0⟩

/-- The panel's collector.  `resetAll` hands out a snapshot of every counter and clears them. -/
structure StatsApi (σ : Type) where
  new : σ
  record : σ → UserId → StatsCall → σ
  resetAll : σ → List UserTraffic × σ
  restore : σ → List UserTraffic → σ

/-- What is assumed of the collector: it adds up what is recorded and restored, and a reset hands
out all of it.  Each call is one step. -/
structure StatsApi.Lawful {σ : Type} (stats : StatsApi σ)
    (collected : σ → UserId → Counter → Nat) : Prop where
  new : ∀ user counter, collected stats.new user counter = 0
  record : ∀ s user call user' counter, collected (stats.record s user call) user' counter =
    collected s user' counter + total [call.traffic user] user' counter
  resetAll_snapshots : ∀ s user counter,
    total (stats.resetAll s).1 user counter = collected s user counter
  resetAll_cleared : ∀ s user counter, collected (stats.resetAll s).2 user counter = 0
  restore : ∀ s snapshots user counter, collected (stats.restore s snapshots) user counter =
    collected s user counter + total snapshots user counter

/-- The collector that only keeps a list. -/
def listStats : StatsApi (List UserTraffic) where
  new := []
  record s user call := s ++ [call.traffic user]
  resetAll s := (s, [])
  restore s snapshots := s ++ snapshots

theorem lawful_listStats : listStats.Lawful total where
  new _ _ := rfl
  record s user call user' counter := total_append s [call.traffic user] user' counter
  resetAll_snapshots _ _ _ := rfl
  resetAll_cleared _ _ _ := rfl
  restore s snapshots user counter := total_append s snapshots user counter

/-- How far `main` has got; `seen` are the connections the pass of `cancel_all` has come to. -/
inductive Main where
  | serving
  | cancelling (seen : List ConnectionId)
  | draining (deadline : Nat)
  | counting (deadline : Nat)
  | stopped
  | submitting (snapshots : List UserTraffic)
  | flushed
  | unregistered
  deriving Repr, DecidableEq

/-- `keys` are the keys of the map of connections, and `stayed` those that have been in it ever
since the last pass or count over it began; `panel` is what the panel has accepted from `main`. -/
structure System (σ : Type) where
  server : Revocation.System
  keys : List ConnectionId
  stayed : List ConnectionId
  stats : σ
  main : Main
  panel : List UserTraffic
  registered : Bool

/-- A step of a session or of a callback, a call of a session on the collector, one step of
`main`, or a call of another task on the collector.  Times are in milliseconds. -/
inductive Action where
  | server (action : Revocation.Action)
  | record (session : SessionId) (call : StatsCall)
  | cancelStart
  | cancelOne (id : ConnectionId)
  | cancelEnd (now : Nat)
  | countStart
  | countEnd (now remaining : Nat)
  | flush
  | submitted (accepted : Bool)
  | unregister (cleared : Bool)
  | takeAll
  | giveBack (snapshots : List UserTraffic)

inductive Output where
  | silent
  | recorded (traffic : UserTraffic)
  | taken (snapshots : List UserTraffic)
  deriving Repr, DecidableEq

variable {σ : Type} (stats : StatsApi σ)

namespace System

def start (users : List (Password × UserId)) : System σ where
  server := Revocation.System.start users
  keys := []
  stayed := []
  stats := stats.new
  main := .serving
  panel := []
  registered := true

def keysAfter (s : System σ) : Revocation.Action → List ConnectionId
  | .insertConnection session =>
      match s.server.sessions session with
      | .allocated _ id => s.keys.insert id
      | _ => s.keys
  | .removeConnection session =>
      match s.server.sessions session with
      | .registered _ id => s.keys.filter fun key => key ≠ id
      | _ => s.keys
  | _ => s.keys

def drainTimeout : Nat := 5000

/-- The first half of `flush_traffic`, up to the call of `submit_traffic`. -/
def flushTraffic (s : System σ) : System σ :=
  let reset := stats.resetAll s.stats
  { s with stats := reset.2
           main := if reset.1.isEmpty then .flushed else .submitting reset.1 }

def step (s : System σ) : Action → Option (System σ × Output)
  | .server action =>
      match s.server.step action with
      | some (server, _) =>
          let keys := s.keysAfter action
          some ({ s with server, keys, stayed := s.stayed.filter fun id => id ∈ keys }, .silent)
      | none => none
  | .record session call =>
      match s.server.sessions session with
      | .registered user _ =>
          some ({ s with stats := stats.record s.stats user call }, .recorded (call.traffic user))
      | _ => none
  | .cancelStart =>
      match s.main with
      | .serving => some ({ s with main := .cancelling [], stayed := s.keys }, .silent)
      | _ => none
  | .cancelOne id =>
      match s.main with
      | .cancelling seen =>
          if id ∈ s.keys then
            let server := { s.server with manager := s.server.manager.cancelConnection id }
            some ({ s with server, main := .cancelling (seen ++ [id]) }, .silent)
          else none
      | _ => none
  | .cancelEnd now =>
      match s.main with
      | .cancelling seen =>
          let main := if seen.isEmpty then .stopped else .draining (now + drainTimeout)
          some ({ s with main }, .silent)
      | _ => none
  | .countStart =>
      match s.main with
      | .draining deadline =>
          some ({ s with main := .counting deadline, stayed := s.keys }, .silent)
      | _ => none
  | .countEnd now remaining =>
      match s.main with
      | .counting deadline =>
          let main := if remaining = 0 ∨ deadline ≤ now then .stopped else .draining deadline
          some ({ s with main }, .silent)
      | _ => none
  | .flush =>
      match s.main with
      | .stopped => some (s.flushTraffic stats, .silent)
      | _ => none
  | .submitted accepted =>
      match s.main with
      | .submitting snapshots =>
          if accepted then
            some ({ s with main := .flushed, panel := s.panel ++ snapshots }, .silent)
          else
            some ({ s with main := .flushed, stats := stats.restore s.stats snapshots }, .silent)
      | _ => none
  | .unregister cleared =>
      match s.main with
      | .flushed =>
          some ({ s with main := .unregistered, registered := s.registered && !cleared }, .silent)
      | _ => none
  | .takeAll =>
      let reset := stats.resetAll s.stats
      some ({ s with stats := reset.2 }, .taken reset.1)
  | .giveBack snapshots =>
      some ({ s with stats := stats.restore s.stats snapshots }, .silent)

end System

inductive StepCase (s : System σ) : Action → System σ → Output → Prop
  | server {action : Revocation.Action} {server : Revocation.System}
      (hstep : s.server.step action = some (server, ())) :
      StepCase s (.server action)
        { s with server, keys := s.keysAfter action
                 stayed := s.stayed.filter fun id => id ∈ s.keysAfter action } .silent
  | record {session : SessionId} {call : StatsCall} {user : UserId} {id : ConnectionId}
      (hphase : s.server.sessions session = .registered user id) :
      StepCase s (.record session call) { s with stats := stats.record s.stats user call }
        (.recorded (call.traffic user))
  | cancelStart (hmain : s.main = .serving) :
      StepCase s .cancelStart { s with main := .cancelling [], stayed := s.keys } .silent
  | cancelOne {id : ConnectionId} {seen : List ConnectionId}
      (hmain : s.main = .cancelling seen) (hkey : id ∈ s.keys) :
      StepCase s (.cancelOne id)
        { s with server := { s.server with manager := s.server.manager.cancelConnection id }
                 main := .cancelling (seen ++ [id]) } .silent
  | cancelEnd {now : Nat} {seen : List ConnectionId} {main : Main}
      (hmain : s.main = .cancelling seen)
      (hnext : main = .stopped ∨ ∃ deadline, main = .draining deadline) :
      StepCase s (.cancelEnd now) { s with main } .silent
  | countStart {deadline : Nat} (hmain : s.main = .draining deadline) :
      StepCase s .countStart { s with main := .counting deadline, stayed := s.keys } .silent
  | countEnd {now remaining deadline : Nat} {main : Main}
      (hmain : s.main = .counting deadline)
      (hnext : main = .stopped ∨ main = .draining deadline) :
      StepCase s (.countEnd now remaining) { s with main } .silent
  | flush (hmain : s.main = .stopped) : StepCase s .flush (s.flushTraffic stats) .silent
  | submitted {snapshots : List UserTraffic} (hmain : s.main = .submitting snapshots) :
      StepCase s (.submitted true)
        { s with main := .flushed, panel := s.panel ++ snapshots } .silent
  | refused {snapshots : List UserTraffic} (hmain : s.main = .submitting snapshots) :
      StepCase s (.submitted false)
        { s with main := .flushed, stats := stats.restore s.stats snapshots } .silent
  | unregister {cleared : Bool} (hmain : s.main = .flushed) :
      StepCase s (.unregister cleared)
        { s with main := .unregistered, registered := s.registered && !cleared } .silent
  | takeAll :
      StepCase s .takeAll { s with stats := (stats.resetAll s.stats).2 }
        (.taken (stats.resetAll s.stats).1)
  | giveBack {snapshots : List UserTraffic} :
      StepCase s (.giveBack snapshots) { s with stats := stats.restore s.stats snapshots } .silent

variable {stats}

theorem stepCase_of_step {s s' : System σ} {a : Action} {o : Output}
    (h : s.step stats a = some (s', o)) : StepCase stats s a s' o := by
  cases a with
  | server action =>
      simp only [System.step] at h
      split at h
      · cases h
        exact .server ‹_›
      · cases h
  | record session call =>
      simp only [System.step] at h
      split at h
      · cases h
        exact .record ‹_›
      · cases h
  | cancelStart =>
      simp only [System.step] at h
      split at h
      · cases h
        exact .cancelStart ‹_›
      · cases h
  | cancelOne id =>
      simp only [System.step] at h
      split at h
      · rename_i hmain
        obtain ⟨hkey, heq⟩ := Option.ite_none_right_eq_some.mp h
        cases heq
        exact .cancelOne hmain hkey
      · cases h
  | cancelEnd now =>
      simp only [System.step] at h
      split at h
      · rename_i seen hmain
        cases h
        refine .cancelEnd hmain ?_
        cases seen.isEmpty
        · exact .inr ⟨_, rfl⟩
        · exact .inl rfl
      · cases h
  | countStart =>
      simp only [System.step] at h
      split at h
      · cases h
        exact .countStart ‹_›
      · cases h
  | countEnd now remaining =>
      simp only [System.step] at h
      split at h
      · rename_i deadline hmain
        cases h
        refine .countEnd hmain ?_
        split
        · exact .inl rfl
        · exact .inr rfl
      · cases h
  | flush =>
      simp only [System.step] at h
      split at h
      · cases h
        exact .flush ‹_›
      · cases h
  | submitted accepted =>
      simp only [System.step] at h
      split at h
      · rename_i snapshots hmain
        cases accepted with
        | true =>
            cases h
            exact .submitted hmain
        | false =>
            cases h
            exact .refused hmain
      · cases h
  | unregister cleared =>
      simp only [System.step] at h
      split at h
      · cases h
        exact .unregister ‹_›
      · cases h
  | takeAll =>
      cases h
      exact .takeAll
  | giveBack snapshots =>
      cases h
      exact .giveBack

abbrev Trace := List (Action × Output)

def Output.traffic : Output → List UserTraffic
  | .recorded traffic => [traffic]
  | _ => []

def Output.snapshots : Output → List UserTraffic
  | .taken snapshots => snapshots
  | _ => []

def Action.snapshots : Action → List UserTraffic
  | .giveBack snapshots => snapshots
  | _ => []

/-- What the sessions have recorded. -/
def recorded (trace : Trace) : List UserTraffic := trace.flatMap fun entry => entry.2.traffic

/-- What other callers have taken out of the collector. -/
def taken (trace : Trace) : List UserTraffic := trace.flatMap fun entry => entry.2.snapshots

/-- What other callers have put into the collector. -/
def given (trace : Trace) : List UserTraffic := trace.flatMap fun entry => entry.1.snapshots

section Snoc

variable (trace : Trace) (a : Action) (o : Output)

@[simp] theorem recorded_snoc :
    recorded (trace ++ [(a, o)]) = recorded trace ++ o.traffic := by
  simp [recorded]

@[simp] theorem taken_snoc : taken (trace ++ [(a, o)]) = taken trace ++ o.snapshots := by
  simp [taken]

@[simp] theorem given_snoc : given (trace ++ [(a, o)]) = given trace ++ a.snapshots := by
  simp [given]

end Snoc

def Main.inFlight : Main → List UserTraffic
  | .submitting snapshots => snapshots
  | _ => []

theorem inFlight_flushTraffic (s : System σ) :
    (s.flushTraffic stats).main.inFlight = (stats.resetAll s.stats).1 := by
  simp only [System.flushTraffic]
  cases (stats.resetAll s.stats).1 with
  | nil => rfl
  | cons traffic snapshots => rfl

section Ledger

variable {collected : σ → UserId → Counter → Nat} {s s' : System σ} {a : Action} {o : Output}
  {trace : Trace}

/-- The traffic of a user with the panel, in the collector and in the report under way. -/
def System.held (collected : σ → UserId → Counter → Nat) (s : System σ) (user : UserId)
    (counter : Counter) : Nat :=
  total s.panel user counter + collected s.stats user counter +
    total s.main.inFlight user counter

theorem held_step (hlawful : stats.Lawful collected) (hcase : StepCase stats s a s' o)
    (user : UserId) (counter : Counter) :
    s'.held collected user counter + total o.snapshots user counter =
      s.held collected user counter + total o.traffic user counter +
        total a.snapshots user counter := by
  have hsame (hpanel : s'.panel = s.panel) (hstats : s'.stats = s.stats)
      (hmain : s'.main.inFlight = s.main.inFlight) (hsnapshots : o.snapshots = [])
      (htraffic : o.traffic = []) (hgiven : a.snapshots = []) :
      s'.held collected user counter + total o.snapshots user counter =
        s.held collected user counter + total o.traffic user counter +
          total a.snapshots user counter := by
    rw [System.held, System.held, hpanel, hstats, hmain, hsnapshots, htraffic, hgiven]
    rfl
  cases hcase with
  | server _ => exact hsame rfl rfl rfl rfl rfl rfl
  | record _ =>
      simp only [System.held, hlawful.record, Output.traffic, Output.snapshots, Action.snapshots,
        total_nil]
      omega
  | cancelStart hmain | cancelOne hmain _ | countStart hmain | unregister hmain =>
      refine hsame rfl rfl ?_ rfl rfl rfl
      rw [hmain]
      rfl
  | cancelEnd hmain hnext =>
      refine hsame rfl rfl ?_ rfl rfl rfl
      rw [hmain]
      rcases hnext with rfl | ⟨deadline, rfl⟩ <;> rfl
  | countEnd hmain hnext =>
      refine hsame rfl rfl ?_ rfl rfl rfl
      rw [hmain]
      rcases hnext with rfl | rfl <;> rfl
  | flush hmain =>
      have htaken := hlawful.resetAll_snapshots s.stats user counter
      have hcleared := hlawful.resetAll_cleared s.stats user counter
      have hinFlight : s.main.inFlight = [] := by
        rw [hmain]
        rfl
      simp only [System.held, inFlight_flushTraffic, hinFlight, Output.traffic, Output.snapshots,
        Action.snapshots, total_nil]
      simp only [System.flushTraffic]
      omega
  | submitted hmain =>
      simp only [System.held, hmain, Main.inFlight, Output.traffic, Output.snapshots,
        Action.snapshots, total_append, total_nil]
      omega
  | refused hmain =>
      simp only [System.held, hmain, Main.inFlight, Output.traffic, Output.snapshots,
        Action.snapshots, hlawful.restore, total_nil]
      omega
  | takeAll =>
      have htaken := hlawful.resetAll_snapshots s.stats user counter
      have hcleared := hlawful.resetAll_cleared s.stats user counter
      simp only [System.held, Output.traffic, Output.snapshots, Action.snapshots, total_nil]
      omega
  | giveBack =>
      simp only [System.held, Output.traffic, Output.snapshots, Action.snapshots,
        hlawful.restore, total_nil]
      omega

/-- Everything recorded is held somewhere, and the node is registered until `main` says
otherwise. -/
structure Ledger (collected : σ → UserId → Counter → Nat) (trace : Trace) (s : System σ) :
    Prop where
  balanced : ∀ user counter,
    total (recorded trace) user counter + total (given trace) user counter =
      s.held collected user counter + total (taken trace) user counter
  registered : s.main ≠ .unregistered → s.registered = true

theorem ledger_start (hlawful : stats.Lawful collected) (users : List (Password × UserId)) :
    Ledger collected [] (System.start stats users) where
  balanced := by
    intro user counter
    simp [recorded, given, taken, System.held, System.start, Main.inFlight, hlawful.new]
  registered := fun _ => rfl

theorem registered_step (h : s.main ≠ .unregistered → s.registered = true)
    (hcase : StepCase stats s a s' o) : s'.main ≠ .unregistered → s'.registered = true := by
  intro hmain'
  have registered_of {main : Main} (hmain : s.main = main) (hne : main ≠ .unregistered) :
      s.registered = true :=
    h (hmain ▸ hne)
  cases hcase with
  | cancelStart hmain | cancelOne hmain _ | cancelEnd hmain _ | countStart hmain
  | countEnd hmain _ | flush hmain | submitted hmain | refused hmain =>
      exact registered_of hmain (by simp)
  | unregister _ => exact absurd rfl hmain'
  | _ => exact h hmain'

theorem Ledger.step (hlawful : stats.Lawful collected) (h : Ledger collected trace s)
    (hcase : StepCase stats s a s' o) : Ledger collected (trace ++ [(a, o)]) s' := by
  refine ⟨?_, registered_step h.registered hcase⟩
  intro user counter
  have hbalanced := h.balanced user counter
  have hheld := held_step hlawful hcase user counter
  simp only [recorded_snoc, given_snoc, taken_snoc, total_append]
  omega

end Ledger

/-- One session of user 7 is cancelled and records once more before it ends. -/
def shutdownActions : List Action :=
  [.server (.authenticate 0 password), .server (.fetchAdd 0), .server (.insertConnection 0),
    .server (.insertUserConnection 0), .record 0 .recordRequest, .record 0 (.recordUpload 5),
    .takeAll, .giveBack [⟨7, 2, 0, 1⟩], .cancelStart, .cancelOne 1, .cancelEnd 0,
    .record 0 (.recordDownload 3), .server (.removeConnection 0),
    .server (.removeUserConnection 0), .countStart, .countEnd 100 0, .flush, .submitted true]

end TrojanServer.Shutdown
