import TrojanServer.Dns

namespace TrojanServer.Dns.ResolvedAddrs

open TrojanServer.FrameDecoding
open TrojanServer.IpFilter
open TrojanServer.IpText

def OtherFamily : IpAddr → IpAddr → Bool
  | .v4 _, .v6 _ => true
  | .v6 _, .v4 _ => true
  | _, _ => false

/-- The order of preference a resolver expresses by its list. -/
def preferenceOrder : List IpAddr → List IpAddr
  | [] => []
  | ip :: ips => ip :: ((ip :: ips).find? (OtherFamily ip)).toList

theorem mem_of_mem_preferenceOrder {ips : List IpAddr} {ip : IpAddr}
    (h : ip ∈ preferenceOrder ips) : ip ∈ ips := by
  cases ips with
  | nil => exact h
  | cons first ips =>
      rcases List.mem_cons.mp h with rfl | hother
      · exact List.mem_cons_self
      · exact List.mem_of_find?_eq_some (Option.mem_toList.mp hother)

theorem find?_eq_map_findSome? {α β : Type} {p : α → Bool} {family : α → Option β} {back : β → α}
    (h : ∀ a, (family a).map back = if p a then some a else none) (l : List α) :
    l.find? p = (l.findSome? family).map back := by
  induction l with
  | nil => rfl
  | cons a l ih =>
      have ha := h a
      cases hp : p a with
      | false =>
          have hnone : family a = none := by simpa [hp] using ha
          simpa [List.findSome?, hp, hnone] using ih
      | true =>
          obtain ⟨b, hb, hback⟩ : ∃ b, family a = some b ∧ back b = a := by simpa [hp] using ha
          simp [List.findSome?, hp, hb, hback]

theorem find?_other_v4 (octets : Octets 4) (ips : List IpAddr) :
    ips.find? (OtherFamily (.v4 octets)) = (ips.findSome? IpAddr.asV6).map IpAddr.v6 :=
  find?_eq_map_findSome? (fun ip => by cases ip <;> rfl) ips

theorem find?_other_v6 (octets : Octets 16) (ips : List IpAddr) :
    ips.find? (OtherFamily (.v6 octets)) = (ips.findSome? IpAddr.asV4).map IpAddr.v4 :=
  find?_eq_map_findSome? (fun ip => by cases ip <;> rfl) ips

/-- Once an address is held, the order is settled. -/
theorem v6First_foldl_insert (ips : List IpAddr) (out : ResolvedAddrs)
    (h : out.v4.isSome ∨ out.v6.isSome) :
    (ips.foldl insert out).v6First = out.v6First := by
  induction ips generalizing out with
  | nil => rfl
  | cons ip ips ih =>
      rw [List.foldl_cons, ih _ (by cases ip <;> simp [insert])]
      cases ip with
      | v4 octets => rfl
      | v6 octets =>
          have hheld : (out.v4.isNone && out.v6.isNone) = false := by
            rcases h with h | h <;> simp [Option.isNone_eq_false_iff.mpr h]
          simp only [insert, hheld, Bool.or_false]

theorem candidates_collect_cons (port : UInt16) (ip : IpAddr) (ips : List IpAddr) :
    ∃ r, collect port (ip :: ips) = some r ∧
      r.candidates = (preferenceOrder (ip :: ips)).map (SocketAddr.mk · port) := by
  obtain ⟨hv4, hv6, hport⟩ := foldl_insert (ip :: ips) ⟨none, none, port, false⟩
  refine ⟨(ip :: ips).foldl insert ⟨none, none, port, false⟩, ?_, ?_⟩
  · rw [collect, if_pos]
    rw [hv4, hv6]
    cases ip <;> simp [List.findSome?, IpAddr.asV4, IpAddr.asV6]
  · have hfirst := v6First_foldl_insert ips (insert ⟨none, none, port, false⟩ ip)
      (by cases ip <;> simp [insert])
    rw [← List.foldl_cons] at hfirst
    cases ip with
    | v4 octets =>
        rw [candidates, hv4, hv6, hport, hfirst, preferenceOrder, find?_other_v4]
        cases hsecond : ips.findSome? IpAddr.asV6 <;>
          simp [insert, hsecond, List.findSome?, IpAddr.asV4, IpAddr.asV6]
    | v6 octets =>
        rw [candidates, hv4, hv6, hport, hfirst, preferenceOrder, find?_other_v6]
        cases hsecond : ips.findSome? IpAddr.asV4 <;>
          simp [insert, hsecond, List.findSome?, IpAddr.asV4, IpAddr.asV6]

theorem socketAddr_of_candidates {r : ResolvedAddrs} {addr : SocketAddr} {more : List SocketAddr}
    (h : r.candidates = addr :: more) : r.socketAddr = .ok addr := by
  rw [socketAddr, h]
  rfl

theorem candidates_of_collect {port : UInt16} {ips : List IpAddr} {r : ResolvedAddrs}
    (h : collect port ips = some r) :
    r.candidates = (preferenceOrder ips).map (SocketAddr.mk · port) := by
  cases ips with
  | nil => simp [collect_eq_none_iff.mpr rfl] at h
  | cons ip ips =>
      obtain ⟨r', hcollect, hcandidates⟩ := candidates_collect_cons port ip ips
      rw [h] at hcollect
      cases hcollect
      exact hcandidates

theorem not_private_of_resolved {cache : DnsCache} {addr : Protocol.Address} {n n' : Nat}
    {r : ResolvedAddrs} (h : checkPrivateAndResolve cache addr n = ((false, some r), n')) :
    ∀ candidate ∈ r.candidates, isPrivateIp candidate.ip = false := by
  unfold checkPrivateAndResolve at h
  split at h
  · simp at h
  · simp at h
  split at h
  · simp at h
  split at h
  · cases h
  · simp only at h
    split at h
    · cases h
    · rename_i addrs _ hpublic
      simp only [Prod.mk.injEq, true_and] at h
      intro candidate hcandidate
      rw [candidates_of_collect h.1] at hcandidate
      obtain ⟨ip, hip, rfl⟩ := List.mem_map.mp hcandidate
      have hmem := mem_of_mem_preferenceOrder hip
      exact Bool.eq_false_iff.mpr fun hprivate =>
        hpublic (List.any_eq_true.mpr ⟨ip, hmem, hprivate⟩)

/-- Nothing is collected from an empty list only; otherwise the candidates are the first
address listed and the first of the other family, and none of them is private if the
list was screened. -/
theorem candidates_follow_resolver :
    (∀ port ips, collect port ips = none ↔ ips = []) ∧
      (∀ port ip ips, ∃ r, collect port (ip :: ips) = some r ∧
        r.candidates =
          ⟨ip, port⟩ :: (((ip :: ips).find? (OtherFamily ip)).map (SocketAddr.mk · port)).toList ∧
        r.socketAddr = .ok ⟨ip, port⟩) ∧
      (∀ port ips r, collect port ips = some r → ∀ candidate ∈ r.candidates,
        candidate.ip ∈ ips) ∧
      ∀ cache addr n r n', checkPrivateAndResolve cache addr n = ((false, some r), n') →
        ∀ candidate ∈ r.candidates, isPrivateIp candidate.ip = false := by
  refine ⟨fun _ _ => collect_eq_none_iff, ?_, ?_, fun _ _ _ _ _ => not_private_of_resolved⟩
  · intro port ip ips
    obtain ⟨r, hcollect, hcandidates⟩ := candidates_collect_cons port ip ips
    have hlist : r.candidates =
        ⟨ip, port⟩ :: (((ip :: ips).find? (OtherFamily ip)).map (SocketAddr.mk · port)).toList := by
      rw [hcandidates, preferenceOrder, List.map_cons, Option.toList_map]
    exact ⟨r, hcollect, hlist, socketAddr_of_candidates hlist⟩
  · intro port ips r h candidate hcandidate
    rw [candidates_of_collect h] at hcandidate
    obtain ⟨ip, hip, rfl⟩ := List.mem_map.mp hcandidate
    exact mem_of_mem_preferenceOrder hip

end TrojanServer.Dns.ResolvedAddrs
