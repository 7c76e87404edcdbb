import TrojanServer.Hooks

namespace TrojanServer.DirectConnect

open TrojanServer.AsyncIo
open TrojanServer.Dns
open TrojanServer.Hooks
open TrojanServer.IpFilter
open TrojanServer.IpText
open TrojanServer.Protocol

variable {H : Type}

inductive ConnectResult where
  | connected
  | failed (message : String)
  | timedOut
  deriving Repr, DecidableEq

structure Network (H : Type) where
  connect : SocketAddr → ConnectResult
  dialTcp : H → AclAddr → ConnectResult

inductive Attempt (H : Type) where
  | connect (addr : SocketAddr)
  | dialTcp (handler : H) (addr : AclAddr)
  deriving DecidableEq

/-- The attempts made, in order, and the one that led to a connection or the
error returned to the caller. -/
structure Connected (H : Type) where
  attempts : List (Attempt H)
  outcome : Except String (Attempt H)
  deriving DecidableEq

def connectCandidates (net : Network H) : List SocketAddr → Option String → Connected H
  | [], lastErr => ⟨[], .error (lastErr.getD "no address to connect to")⟩
  | addr :: candidates, _ =>
      match net.connect addr with
      | .connected => ⟨[.connect addr], .ok (.connect addr)⟩
      | .failed message =>
          let r := connectCandidates net candidates (some message)
          ⟨.connect addr :: r.attempts, r.outcome⟩
      | .timedOut =>
          let r := connectCandidates net candidates (some "TCP connect timeout")
          ⟨.connect addr :: r.attempts, r.outcome⟩

def dialViaHandler (net : Network H) (target : Address) (handler : H)
    (resolved : Option ResolvedAddrs) (kind : String) : Connected H :=
  let attempt := Attempt.dialTcp handler (aclAddrFor target resolved)
  match net.dialTcp handler (aclAddrFor target resolved) with
  | .connected => ⟨[attempt], .ok attempt⟩
  | .failed message => ⟨[attempt], .error (kind ++ " connect failed: " ++ message)⟩
  | .timedOut => ⟨[attempt], .error (kind ++ " connect timeout")⟩

def handleDirectConnect (cache : DnsCache) (net : Network H) (target : Address)
    (resolved : Option ResolvedAddrs) (handler : Option H) (n : Nat) : Connected H × Nat :=
  match handler with
  | some handler => (dialViaHandler net target handler resolved "direct", n)
  | none =>
      match resolved with
      | some r => (connectCandidates net r.candidates none, n)
      | none =>
          match resolveAddrs cache target n with
          | (.ok r, n) => (connectCandidates net r.candidates none, n)
          | (.error e, n) => (⟨[], .error e.message⟩, n)

def handleProxyConnect (net : Network H) (target : Address) (handler : H)
    (hijack : Option IpAddr) : Connected H :=
  match hijack with
  | some ip => dialViaHandler net (.fromIp ip target.port) handler none "proxy"
  | none => dialViaHandler net target handler none "proxy"

/-- Route the target and connect.  A rejected target makes no attempt and is no
error. -/
def handleConnect (cache : DnsCache) (net : Network H) (target : Address)
    (route : Address → Nat → OutboundType H × Nat) (n : Nat) : Option (Connected H) × Nat :=
  match route target n with
  | (.direct resolved handler, n) =>
      let r := handleDirectConnect cache net target resolved handler n
      (some r.1, r.2)
  | (.proxy handler hijack, n) => (some (handleProxyConnect net target handler hijack), n)
  | (.reject, n) => (none, n)

def resolvedCandidates (cache : DnsCache) (target : Address) (n : Nat) : List SocketAddr :=
  match (resolveAddrs cache target n).1 with
  | .ok r => r.candidates
  | .error _ => []

/-- The candidates of a session that goes through the direct router with
screening on.  They do not depend on how the attempts end. -/
def screenedCandidates (cache : DnsCache) (target : Address) (n : Nat) : List SocketAddr :=
  match screenDirectTarget cache target true n with
  | (.blocked, _) => []
  | (.allow (some r), _) => r.candidates
  | (.allow none, n) => resolvedCandidates cache target n

theorem mem_of_mem_attempts {net : Network H} {candidates : List SocketAddr}
    {lastErr : Option String} {addr : SocketAddr}
    (h : .connect addr ∈ (connectCandidates net candidates lastErr).attempts) :
    addr ∈ candidates := by
  induction candidates generalizing lastErr with
  | nil => simp [connectCandidates] at h
  | cons a candidates ih =>
      unfold connectCandidates at h
      split at h
      · simp only [List.mem_singleton, Attempt.connect.injEq] at h
        simp [h]
      all_goals
        simp only [List.mem_cons, Attempt.connect.injEq] at h ⊢
        exact h.imp id ih

theorem attempts_of_timedOut {net : Network H} (hnet : ∀ addr, net.connect addr = .timedOut)
    (candidates : List SocketAddr) (lastErr : Option String) :
    (connectCandidates net candidates lastErr).attempts = candidates.map .connect := by
  induction candidates generalizing lastErr with
  | nil => rfl
  | cons addr candidates ih =>
      simp only [connectCandidates, hnet, ih, List.map_cons]

theorem handleConnect_screened (cache : DnsCache) (net : Network H) (target : Address)
    (n : Nat) :
    (∃ connected n', handleConnect cache net target (DirectRouter.mk true cache).route n =
        (some connected, n') ∧
        connected.attempts =
          (connectCandidates net (screenedCandidates cache target n) none).attempts) ∨
      (screenedCandidates cache target n = [] ∧
        ∃ n', handleConnect cache net target (DirectRouter.mk true cache).route n =
          (none, n')) := by
  unfold handleConnect DirectRouter.route screenedCandidates
  rcases screenDirectTarget cache target true n with ⟨_ | ⟨_ | r⟩, n'⟩
  · exact .inr ⟨rfl, n', rfl⟩
  · refine .inl ⟨_, _, rfl, ?_⟩
    simp only [handleDirectConnect, resolvedCandidates]
    rcases resolveAddrs cache target n' with ⟨e | r, n''⟩ <;> rfl
  · exact .inl ⟨_, _, rfl, rfl⟩

/-- No connection attempt of the session, however its attempts end, goes to a
private address. -/
def ConnectsPublicly (H : Type) (cache : DnsCache) (target : Address) (n : Nat) : Prop :=
  ∀ (net : Network H) (connected : Connected H) (n' : Nat),
    handleConnect cache net target (DirectRouter.mk true cache).route n = (some connected, n') →
      ∀ addr, .connect addr ∈ connected.attempts → isPrivateIp addr.ip = false

theorem connectsPublicly_iff (cache : DnsCache) (target : Address) (n : Nat) :
    ConnectsPublicly H cache target n ↔
      ∀ addr ∈ screenedCandidates cache target n, isPrivateIp addr.ip = false := by
  constructor
  · intro h addr hmem
    let net : Network H := ⟨fun _ => .timedOut, fun _ _ => .timedOut⟩
    rcases handleConnect_screened cache net target n with
      ⟨connected, n', hconnect, hattempts⟩ | ⟨hnone, -⟩
    · apply h net connected n' hconnect addr
      rw [hattempts, attempts_of_timedOut fun _ => rfl]
      exact List.mem_map_of_mem hmem
    · simp [hnone] at hmem
  · intro h net connected n' hconnect addr hmem
    rcases handleConnect_screened cache net target n with
      ⟨connected', n'', hconnect', hattempts⟩ | ⟨-, n'', hconnect'⟩
    · rw [hconnect'] at hconnect
      cases hconnect
      rw [hattempts] at hmem
      exact h addr (mem_of_mem_attempts hmem)
    · rw [hconnect'] at hconnect
      cases hconnect

/-- A host that is an IP literal resolves to itself, if it resolves. -/
def LiteralsResolveToSelf (cache : DnsCache) : Prop :=
  ∀ n host port ip addrs, parseIpAddr host = some ip → cache n host port = .ok addrs →
    ∀ addr ∈ addrs, addr.ip = ip

/-- The lookup that screens the domain finds nothing, and the next one puts a
private address first in its family. -/
def RebindsAfterEmptyAnswer (cache : DnsCache) (target : Address) (n : Nat) : Prop :=
  ∃ host port addrs, target = .domain host port ∧ parseIpAddr host = none ∧
    cache n host port = .ok [] ∧ cache (n + 1) host port = .ok addrs ∧
    ∃ ip ∈ ResolvedAddrs.firstOfEachFamily (addrs.map SocketAddr.ip), isPrivateIp ip = true

theorem mem_resolvedCandidates_domain {cache : DnsCache} {host : String} {port : UInt16}
    {n : Nat} {addr : SocketAddr} :
    addr ∈ resolvedCandidates cache (.domain host port) n ↔
      ∃ addrs, cache n host port = .ok addrs ∧
        addr.ip ∈ ResolvedAddrs.firstOfEachFamily (addrs.map SocketAddr.ip) ∧
        addr.port = port := by
  cases hanswer : cache n host port with
  | error e => simp [resolvedCandidates, resolveAddrs, hanswer]
  | ok addrs =>
      simp only [resolvedCandidates, resolveAddrs, hanswer, Except.ok.injEq, exists_eq_left']
      cases hcollect : ResolvedAddrs.collect port (addrs.map SocketAddr.ip) with
      | some r => exact ResolvedAddrs.mem_candidates_collect hcollect addr
      | none =>
          rw [ResolvedAddrs.collect_eq_none_iff.mp hcollect]
          simp [ResolvedAddrs.firstOfEachFamily]

section ScreenedCandidates

variable (cache : DnsCache) (n : Nat)

theorem screenedCandidates_literal {target : Address} (ip : IpAddr)
    (hcheck : checkPrivateAndResolve cache target n = ((isPrivateIp ip, none), n)) :
    screenedCandidates cache target n =
      if isPrivateIp ip then [] else resolvedCandidates cache target n := by
  unfold screenedCandidates screenDirectTarget
  rw [hcheck]
  cases isPrivateIp ip <;> rfl

theorem screenedCandidates_domain {host : String} {port : UInt16}
    (hhost : parseIpAddr host = none) {addrs : List SocketAddr}
    (hanswer : cache n host port = .ok addrs)
    (hpublic : (addrs.map SocketAddr.ip).any isPrivateIp = false) :
    screenedCandidates cache (.domain host port) n =
      match ResolvedAddrs.collect port (addrs.map SocketAddr.ip) with
      | some r => r.candidates
      | none => resolvedCandidates cache (.domain host port) (n + 1) := by
  have hcheck : checkPrivateAndResolve cache (.domain host port) n =
      ((false, ResolvedAddrs.collect port (addrs.map SocketAddr.ip)), n + 1) := by
    simp only [checkPrivateAndResolve, hhost, hanswer, hpublic, Bool.false_eq_true, if_false]
  unfold screenedCandidates screenDirectTarget
  rw [hcheck]
  cases ResolvedAddrs.collect port (addrs.map SocketAddr.ip) <;> rfl

theorem screenedCandidates_blocked {host : String} {port : UInt16}
    (hhost : parseIpAddr host = none)
    (hanswer : ∀ addrs, cache n host port = .ok addrs →
      (addrs.map SocketAddr.ip).any isPrivateIp = true) :
    screenedCandidates cache (.domain host port) n = [] := by
  have hcheck : checkPrivateAndResolve cache (.domain host port) n = ((true, none), n + 1) := by
    simp only [checkPrivateAndResolve, hhost]
    cases hlookup : cache n host port with
    | error e => rfl
    | ok addrs => simp [hanswer addrs hlookup]
  unfold screenedCandidates screenDirectTarget
  rw [hcheck]
  rfl

end ScreenedCandidates

theorem screenedCandidates_public_of_literal {cache : DnsCache}
    (hliteral : LiteralsResolveToSelf cache) {host : String} {ip : IpAddr}
    (hhost : parseIpAddr host = some ip) (port : UInt16) (n : Nat) :
    ∀ addr ∈ screenedCandidates cache (.domain host port) n, isPrivateIp addr.ip = false := by
  intro addr hmem
  rw [screenedCandidates_literal cache n ip
    (by simp [checkPrivateAndResolve, hhost])] at hmem
  cases hprivate : isPrivateIp ip with
  | true => simp [hprivate] at hmem
  | false =>
      simp only [hprivate, Bool.false_eq_true, if_false] at hmem
      obtain ⟨addrs, hanswer, hfirst, -⟩ := mem_resolvedCandidates_domain.mp hmem
      obtain ⟨found, hfound, heq⟩ :=
        List.mem_map.mp (ResolvedAddrs.mem_of_mem_firstOfEachFamily hfirst)
      rw [← heq, hliteral n host port ip addrs hhost hanswer found hfound, hprivate]

theorem screenedCandidates_public_iff_of_domain {cache : DnsCache} {host : String}
    (hhost : parseIpAddr host = none) (port : UInt16) (n : Nat) :
    (∀ addr ∈ screenedCandidates cache (.domain host port) n, isPrivateIp addr.ip = false) ↔
      ¬ RebindsAfterEmptyAnswer cache (.domain host port) n := by
  by_cases hblocked : ∀ addrs, cache n host port = .ok addrs →
      (addrs.map SocketAddr.ip).any isPrivateIp = true
  · simp only [screenedCandidates_blocked cache n hhost hblocked, List.not_mem_nil,
      false_implies, implies_true, true_iff]
    rintro ⟨host', port', addrs, htarget, -, hempty, -⟩
    cases htarget
    exact absurd (hblocked [] hempty) (by simp)
  · push Not at hblocked
    obtain ⟨addrs, hanswer, hpublic⟩ := hblocked
    rw [ne_eq, Bool.not_eq_true] at hpublic
    rw [screenedCandidates_domain cache n hhost hanswer hpublic]
    cases hcollect : ResolvedAddrs.collect port (addrs.map SocketAddr.ip) with
    | some r =>
        constructor
        · rintro - ⟨host', port', addrs', htarget, -, hempty, -⟩
          cases htarget
          rw [hanswer, Except.ok.injEq] at hempty
          simp [hempty, ResolvedAddrs.collect] at hcollect
        · intro _ addr hmem
          have hfirst := ((ResolvedAddrs.mem_candidates_collect hcollect addr).mp hmem).1
          have hin := ResolvedAddrs.mem_of_mem_firstOfEachFamily hfirst
          simpa using List.any_eq_false.mp hpublic addr.ip hin
    | none =>
        have hempty : addrs = [] := by
          simpa using ResolvedAddrs.collect_eq_none_iff.mp hcollect
        subst hempty
        constructor
        · rintro h ⟨host', port', addrs', htarget, -, -, hnext, ip, hfirst, hprivate⟩
          cases htarget
          have hmem : SocketAddr.mk ip port ∈
              resolvedCandidates cache (.domain host port) (n + 1) :=
            mem_resolvedCandidates_domain.mpr ⟨addrs', hnext, hfirst, rfl⟩
          have hfalse : isPrivateIp ip = false := h _ hmem
          simp [hfalse] at hprivate
        · intro h addr hmem
          obtain ⟨addrs', hnext, hfirst, -⟩ := mem_resolvedCandidates_domain.mp hmem
          rw [← Bool.not_eq_true]
          intro hprivate
          exact h ⟨host, port, addrs', rfl, hhost, hanswer, hnext, addr.ip, hfirst, hprivate⟩

/-- SSRF safety of the direct path: whatever the resolver answers, the session
connects to public addresses only, exactly if it does not rebind after an empty
answer. -/
theorem direct_connects_publicly_iff (cache : DnsCache) (target : Address) (n : Nat)
    (hliteral : LiteralsResolveToSelf cache) :
    ConnectsPublicly H cache target n ↔ ¬ RebindsAfterEmptyAnswer cache target n := by
  rw [connectsPublicly_iff]
  cases target with
  | ipv4 ip port =>
      rw [screenedCandidates_literal cache n (.v4 ip) rfl]
      cases hprivate : isPrivateIp (.v4 ip) <;>
        simp [resolvedCandidates, resolveAddrs, ResolvedAddrs.candidates, hprivate,
          RebindsAfterEmptyAnswer]
  | ipv6 ip port =>
      rw [screenedCandidates_literal cache n (.v6 ip) rfl]
      cases hprivate : isPrivateIp (.v6 ip) <;>
        simp [resolvedCandidates, resolveAddrs, ResolvedAddrs.candidates, hprivate,
          RebindsAfterEmptyAnswer]
  | domain host port =>
      cases hhost : parseIpAddr host with
      | some ip =>
          have hnot : ¬ RebindsAfterEmptyAnswer cache (.domain host port) n := by
            rintro ⟨host', port', addrs, htarget, hhost', -⟩
            cases htarget
            simp [hhost] at hhost'
          exact iff_of_true (screenedCandidates_public_of_literal hliteral hhost port n) hnot
      | none => exact screenedCandidates_public_iff_of_domain hhost port n

/-- A resolver that answers for names with the `n`-th of the given lists, and for
literals with themselves. -/
def scriptedCache (answers : List (List IpAddr)) : DnsCache := fun n host port =>
  match parseIpAddr host with
  | some ip => .ok [⟨ip, port⟩]
  | none => .ok ((answers.getD n []).map fun ip => ⟨ip, port⟩)

theorem literalsResolveToSelf_scripted (answers : List (List IpAddr)) :
    LiteralsResolveToSelf (scriptedCache answers) := by
  intro n host port ip addrs hhost hanswer addr hmem
  simp only [scriptedCache, hhost, Except.ok.injEq] at hanswer
  subst hanswer
  rw [List.mem_singleton.mp hmem]

def rebindingCache : DnsCache := scriptedCache [[], [.v4 ⟨[10, 0, 0, 1], rfl⟩]]

/-- The session tries to connect to 10.0.0.1. -/
theorem rebinding_connects_privately :
    LiteralsResolveToSelf rebindingCache ∧
      ¬ ConnectsPublicly Unit rebindingCache (.domain "rebind.example" 80) 0 := by
  refine ⟨literalsResolveToSelf_scripted _, ?_⟩
  intro h
  have hprivate := h ⟨fun _ => .connected, fun _ _ => .connected⟩ _ _ rfl
    ⟨.v4 ⟨[10, 0, 0, 1], rfl⟩, 80⟩ (List.mem_singleton.mpr rfl)
  exact absurd hprivate (by decide)

theorem direct_connects_publicly_scripted :
    ConnectsPublicly Unit (scriptedCache [[.v4 ⟨[93, 184, 216, 34], rfl⟩]])
      (.domain "rebind.example" 80) 0 := by
  apply (direct_connects_publicly_iff _ _ 0 (literalsResolveToSelf_scripted _)).mpr
  rintro ⟨host, port, addrs, htarget, hhost, hempty, -⟩
  cases htarget
  simp [scriptedCache, hhost] at hempty

end TrojanServer.DirectConnect
