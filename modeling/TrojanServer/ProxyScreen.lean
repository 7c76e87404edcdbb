import TrojanServer.AclRouter
import TrojanServer.IpLiterals

namespace TrojanServer.Acl

open TrojanServer.Dns
open TrojanServer.FrameDecoding
open TrojanServer.Hooks
open TrojanServer.IpFilter
open TrojanServer.IpText
open TrojanServer.Protocol

section Spellings

/-- One number of an `inet_aton` address. -/
inductive AtonPart : List UInt8 → Prop
  | decimal {digits : List UInt8} (hne : digits ≠ []) (h : ∀ b ∈ digits, IsDecimal b) :
      AtonPart digits
  | hexadecimal {x : UInt8} (hx : x = 120 ∨ x = 88) {digits : List UInt8} (hne : digits ≠ [])
      (h : ∀ b ∈ digits, IsHexadecimal b) : AtonPart (48 :: x :: digits)

/-- That many numbers with dots between them. -/
inductive AtonParts : Nat → List UInt8 → Prop
  | one {part : List UInt8} (h : AtonPart part) : AtonParts 1 part
  | more {n : Nat} {part text : List UInt8} (h : AtonPart part) (hrest : AtonParts n text) :
      AtonParts (n + 1) (part ++ 46 :: text)

/-- The text is the body followed by dots only. -/
def Trimmed (text body : List UInt8) : Prop := ∃ k, text = body ++ List.replicate k 46

def AtonSpelling (text : List UInt8) : Prop :=
  ∃ body n, Trimmed text body ∧ n ≤ 4 ∧ AtonParts n body

/-- In some mix of cases and with any number of dots behind it, a loopback alias or a
name under `localhost`. -/
def LoopbackName (text : List UInt8) : Prop :=
  ∃ body, Trimmed text body ∧
    (body.map toAsciiLowercase ∈ loopbackAliases.map asBytes ∨
      asBytes ".localhost" <:+ body.map toAsciiLowercase)

end Spellings

section Numeric

variable {part text body : List UInt8}

theorem isAsciiDigit_iff {b : UInt8} : isAsciiDigit b = true ↔ IsDecimal b := by
  simp [isAsciiDigit, IsDecimal]

theorem isAsciiHexdigit_iff {b : UInt8} : isAsciiHexdigit b = true ↔ IsHexadecimal b := by
  simp [isAsciiHexdigit, isAsciiDigit_iff, IsHexadecimal, or_assoc]

theorem ne_dot_of_isHexadecimal {b : UInt8} (h : IsHexadecimal b) : b ≠ 46 := by
  rintro rfl
  exact absurd (isAsciiHexdigit_iff.mpr h) (by decide)

theorem AtonPart.no_dot (h : AtonPart part) : ∀ b ∈ part, b ≠ 46 := by
  cases h with
  | decimal _ h =>
      intro b hb
      exact ne_dot_of_isHexadecimal (.inl (h b hb))
  | hexadecimal hx _ h =>
      intro b hb
      rcases List.mem_cons.mp hb with rfl | hb
      · decide
      rcases List.mem_cons.mp hb with rfl | hb
      · rcases hx with rfl | rfl <;> decide
      · exact ne_dot_of_isHexadecimal (h b hb)

theorem AtonPart.ne_nil (h : AtonPart part) : part ≠ [] := by
  cases h with
  | decimal hne _ => exact hne
  | hexadecimal _ _ _ => exact List.cons_ne_nil _ _

/-- The last number of the address, behind its last dot if there is one. -/
theorem AtonParts.last {n : Nat} (h : AtonParts n text) :
    ∃ front part, text = front ++ part ∧ AtonPart part ∧
      (front = [] ∨ ∃ front', front = front' ++ [46]) := by
  induction h with
  | one h => exact ⟨[], _, rfl, h, .inl rfl⟩
  | @more _ first _ _ _ ih =>
      obtain ⟨front, part, rfl, hpart, hfront⟩ := ih
      refine ⟨first ++ 46 :: front, part, by simp, hpart, .inr ?_⟩
      rcases hfront with rfl | ⟨front', rfl⟩
      · exact ⟨first, rfl⟩
      · exact ⟨first ++ 46 :: front', by simp⟩

theorem trimEndDots_of_trimmed (h : Trimmed text body) (hbody : body ≠ [])
    (hlast : body.getLast hbody ≠ 46) : trimEndDots text = body := by
  obtain ⟨k, rfl⟩ := h
  have hdots : trimEndDots (body ++ List.replicate k 46) = trimEndDots body := by
    simp only [trimEndDots, List.rdropWhile, List.reverse_append, List.reverse_replicate]
    rw [List.dropWhile_append_of_pos (by simp)]
  rw [hdots]
  exact List.rdropWhile_eq_self_iff.mpr fun _ => by simpa using hlast

theorem lastLabel_append {front : List UInt8} (hpart : ∀ b ∈ part, b ≠ 46)
    (hfront : front = [] ∨ ∃ front', front = front' ++ [46]) :
    lastLabel (front ++ part) = part := by
  have hall : ∀ b ∈ part.reverse, (b != 46) = true := by simpa using hpart
  rw [lastLabel, List.rtakeWhile, List.reverse_append, List.takeWhile_append_of_pos hall]
  rcases hfront with rfl | ⟨front', rfl⟩
  · simp
  · simp

theorem AtonPart.numeric (h : AtonPart part) :
    (!part.isEmpty && (part.all isAsciiDigit || (stripHexMark part).any fun digits =>
      !digits.isEmpty && digits.all isAsciiHexdigit)) = true := by
  cases h with
  | decimal hne h =>
      have hall : part.all isAsciiDigit = true :=
        List.all_eq_true.mpr fun b hb => isAsciiDigit_iff.mpr (h b hb)
      simp [hne, hall]
  | @hexadecimal x hx digits hne h =>
      have hall : digits.all isAsciiHexdigit = true :=
        List.all_eq_true.mpr fun b hb => isAsciiHexdigit_iff.mpr (h b hb)
      have hstrip : stripHexMark (48 :: x :: digits) = some digits := by
        rcases hx with rfl | rfl <;> rfl
      simp [hstrip, hne, hall]

theorem isNumericHost_of_aton {host : String} (h : AtonSpelling (asBytes host)) :
    isNumericHost host = true := by
  obtain ⟨body, n, htrim, -, hparts⟩ := h
  obtain ⟨front, part, rfl, hpart, hfront⟩ := hparts.last
  have hne : front ++ part ≠ [] := by simp [hpart.ne_nil]
  have hlast : (front ++ part).getLast hne ≠ 46 := by
    rw [List.getLast_append_of_ne_nil _ hpart.ne_nil]
    exact hpart.no_dot _ (List.getLast_mem _)
  rw [isNumericHost, trimEndDots_of_trimmed htrim hne hlast, lastLabel_append hpart.no_dot hfront]
  exact hpart.numeric

end Numeric

section Names

variable {text body name : List UInt8}

/-- No loopback name is made of the letters of a hexadecimal number, or ends in a dot. -/
theorem loopback_shape (h : name ∈ loopbackAliases.map asBytes ∨ asBytes ".localhost" <:+ name) :
    108 ∈ name ∧ ∃ hne : name ≠ [], name.getLast hne ≠ 46 := by
  rcases h with halias | ⟨front, rfl⟩
  · have hall : ∀ name ∈ loopbackAliases.map asBytes,
        108 ∈ name ∧ ∃ hne : name ≠ [], name.getLast hne ≠ 46 := by
      decide
    exact hall name halias
  · have hne : asBytes ".localhost" ≠ [] := by decide
    have hlast : ∀ hne, (asBytes ".localhost").getLast hne ≠ 46 := by decide
    refine ⟨List.mem_append_right _ (by decide), by simp [hne], ?_⟩
    rw [List.getLast_append_of_ne_nil _ hne]
    exact hlast hne

theorem isLocalhostName_of_loopback {host : String} (h : LoopbackName (asBytes host)) :
    isLocalhostName host = true := by
  obtain ⟨body, htrim, hname⟩ := h
  obtain ⟨-, hne, hlast⟩ := loopback_shape hname
  have hbody : body ≠ [] := by simpa using hne
  have hdot : body.getLast hbody ≠ 46 := by
    intro hdot
    rw [List.getLast_map, hdot] at hlast
    exact hlast rfl
  rw [isLocalhostName, trimEndDots_of_trimmed htrim hbody hdot]
  rcases hname with halias | htail
  · simp only [Bool.or_eq_true, List.contains_iff_mem]
    exact .inl halias
  · simp only [Bool.or_eq_true, List.isSuffixOf_iff_suffix]
    exact .inr htail

/-- A loopback name has a letter `l`. -/
theorem LoopbackName.letter (h : LoopbackName text) : ∃ b ∈ text, toAsciiLowercase b = 108 := by
  obtain ⟨body, ⟨k, rfl⟩, hname⟩ := h
  obtain ⟨b, hb, hlower⟩ := List.mem_map.mp (loopback_shape hname).1
  exact ⟨b, List.mem_append_left _ hb, hlower⟩

end Names

section Literals

/-- A literal is not spelled with the letter `l`. -/
theorem lowercase_ne_of_textual {b : UInt8} (h : Textual b) : toAsciiLowercase b ≠ 108 := by
  unfold toAsciiLowercase
  simp only [Textual, IsHexadecimal, IsDecimal, UInt8.le_iff_toNat_le, ← UInt8.toNat_inj,
    UInt8.reduceToNat] at h
  split
  · simp only [ne_eq, ← UInt8.toNat_inj, UInt8.toNat_add, UInt8.reduceToNat]
    omega
  · simp only [ne_eq, ← UInt8.toNat_inj, UInt8.reduceToNat]
    omega

theorem not_loopback_of_literal {host : String} {ip : IpAddr} (h : parseIpAddr host = some ip) :
    ¬ LoopbackName (asBytes host) := by
  intro hname
  obtain ⟨b, hb, hlower⟩ := hname.letter
  exact lowercase_ne_of_textual (textual_of_parseIpAddr h b hb) hlower

end Literals

section Proxy

variable {H : Type} {router : AclRouter H} {addr : Address} {protocol : Protocol} {n n' : Nat}
  {handler : H} {hijack : Option IpAddr}

theorem routeDirect_ne_proxy {matched : Option H} {target : Option IpAddr} :
    router.routeDirect addr matched target n ≠ (.proxy handler hijack, n') := by
  unfold AclRouter.routeDirect
  split
  · simp
  · split <;> simp

/-- How a target comes to be handed to a proxy. -/
theorem proxy_cases (h : router.routeWithProtocol addr protocol n = (.proxy handler hijack, n')) :
    router.engine.matchHostHijack addr.host addr.port protocol = some (handler, hijack) ∧
      ((∃ allowUdp, router.engine.deref handler = .socks5 allowUdp) ∨
        router.engine.deref handler = .http) ∧
      (router.blockPrivateIp && blockedOnProxy addr) = false ∧ n' = n := by
  unfold AclRouter.routeWithProtocol at h
  split at h
  · rename_i matched target hmatched
    have hproxy : (router.routeProxy addr matched target, n) = (.proxy handler hijack, n') →
        matched = handler ∧ target = hijack ∧
          (router.blockPrivateIp && blockedOnProxy addr) = false ∧ n' = n := by
      intro h
      obtain ⟨hrouted, rfl⟩ := Prod.mk.inj h
      unfold AclRouter.routeProxy at hrouted
      split at hrouted
      · cases hrouted
      · rename_i hallowed
        cases hrouted
        exact ⟨rfl, rfl, by simpa using hallowed, rfl⟩
    split at h
    · cases h
    · rename_i hkind
      obtain ⟨rfl, rfl, hallowed⟩ := hproxy h
      exact ⟨hmatched, .inl ⟨_, hkind⟩, hallowed⟩
    · rename_i hkind
      obtain ⟨rfl, rfl, hallowed⟩ := hproxy h
      exact ⟨hmatched, .inr hkind, hallowed⟩
    · exact absurd h routeDirect_ne_proxy
  · exact absurd h routeDirect_ne_proxy

variable (router) in
/-- The resolver takes no part in what is handed to a proxy. -/
theorem routeWithProtocol_of_proxy
    (hmatched : router.engine.matchHostHijack addr.host addr.port protocol = some (handler, hijack))
    (hkind : (∃ allowUdp, router.engine.deref handler = .socks5 allowUdp) ∨
      router.engine.deref handler = .http)
    (hallowed : (router.blockPrivateIp && blockedOnProxy addr) = false) (m : Nat) :
    router.routeWithProtocol addr protocol m = (.proxy handler hijack, m) := by
  rcases hkind with ⟨allowUdp, hkind⟩ | hkind
  · simp only [AclRouter.routeWithProtocol, hmatched, hkind, AclRouter.routeProxy, hallowed]
    rfl
  · simp only [AclRouter.routeWithProtocol, hmatched, hkind, AclRouter.routeProxy, hallowed]
    rfl

theorem domain_of_allowed {host : String} {port : UInt16}
    (h : blockedOnProxy (.domain host port) = false) :
    (∀ ip, parseIpAddr host = some ip → isPrivateIp ip = false) ∧
      (AtonSpelling (asBytes host) → ∃ ip, parseIpAddr host = some ip ∧ isPrivateIp ip = false) ∧
      ¬ LoopbackName (asBytes host) := by
  simp only [blockedOnProxy, Address.literalIp, Address.host] at h
  cases hparse : parseIpAddr host with
  | some ip =>
      rw [hparse] at h
      refine ⟨?_, fun _ => ⟨ip, rfl, h⟩, not_loopback_of_literal hparse⟩
      rintro ip' heq
      cases heq
      exact h
  | none =>
      rw [hparse] at h
      obtain ⟨hnumeric, hname⟩ := Bool.or_eq_false_iff.mp h
      refine ⟨by simp, ?_, ?_⟩
      · intro haton
        rw [isNumericHost_of_aton haton] at hnumeric
        cases hnumeric
      · intro hloopback
        rw [isLocalhostName_of_loopback hloopback] at hname
        cases hname

end Proxy

/-- No proxy is handed a private or loopback target, however it is spelled, and none is
looked up on the way. -/
theorem proxied_target_not_local {H : Type} {router : AclRouter H} {addr : Address}
    {protocol : Protocol} {n n' : Nat} {handler : H} {hijack : Option IpAddr}
    (hblock : router.blockPrivateIp = true)
    (h : router.routeWithProtocol addr protocol n = (.proxy handler hijack, n')) :
    ((∃ allowUdp, router.engine.deref handler = .socks5 allowUdp) ∨
        router.engine.deref handler = .http) ∧
      (∀ ip port, addr = .ipv4 ip port → isPrivateIp (.v4 ip) = false) ∧
      (∀ ip port, addr = .ipv6 ip port → isPrivateIp (.v6 ip) = false) ∧
      (∀ host port, addr = .domain host port →
        (∀ ip, parseIpAddr host = some ip → isPrivateIp ip = false) ∧
        (AtonSpelling (asBytes host) →
          ∃ ip, parseIpAddr host = some ip ∧ isPrivateIp ip = false) ∧
        ¬ LoopbackName (asBytes host)) ∧
      n' = n ∧
      ∀ cache m, AclRouter.routeWithProtocol { router with dnsCache := cache } addr protocol m =
        (.proxy handler hijack, m) := by
  obtain ⟨hmatched, hkind, hallowed, hn⟩ := proxy_cases h
  have htarget : blockedOnProxy addr = false := by simpa [hblock] using hallowed
  refine ⟨hkind, ?_, ?_, ?_, hn, ?_⟩
  · rintro ip port rfl
    exact htarget
  · rintro ip port rfl
    exact htarget
  · rintro host port rfl
    exact domain_of_allowed htarget
  · intro cache m
    exact routeWithProtocol_of_proxy ⟨router.engine, router.blockPrivateIp, cache⟩ hmatched hkind
      hallowed m

/-- A rule set that sends everything through one SOCKS5 outbound. -/
def proxyAll : AclRouter OutboundHandler where
  engine := ⟨fun _ _ _ => some (.socks5 true, none), fun _ => none, id⟩
  blockPrivateIp := true
  dnsCache := fun _ host _ => .error (.notFound host)

theorem proxied_target_not_local_example_com :
    proxyAll.routeWithProtocol (.domain "example.com" 443) .tcp 0 =
        (.proxy (.socks5 true) none, 0) ∧
      ¬ AtonSpelling (asBytes "example.com") ∧ ¬ LoopbackName (asBytes "example.com") := by
  have hroute : proxyAll.routeWithProtocol (.domain "example.com" 443) .tcp 0 =
      (.proxy (.socks5 true) none, 0) := by decide
  obtain ⟨-, -, -, hdomain, -⟩ := proxied_target_not_local rfl hroute
  obtain ⟨-, haton, hname⟩ := hdomain _ _ rfl
  refine ⟨hroute, ?_, hname⟩
  intro h
  obtain ⟨ip, hip, -⟩ := haton h
  have hnone : parseIpAddr "example.com" = none := by decide
  rw [hnone] at hip
  cases hip

/-- Spellings of 127.0.0.1 as a number, shortened, in hexadecimal and with a dot behind. -/
example : ∀ host ∈ ["2130706433", "127.1", "0X7f.1", "127.0.0.1.", "LocalHost..", "a.localhost"],
    proxyAll.routeUdp (.domain host 22) 0 = (.reject, 0) := by
  decide

end TrojanServer.Acl
