import ServerDiscovery.Proofs.Address.Entry

/-! Two socket addresses are one endpoint if their ports and the sixteen bytes of their addresses are
the same, and in no other case. What a socket of either family makes of a target keeps both, and no
endpoint has an address in mapped form. -/

namespace ServerDiscovery

namespace Ip6

def mappedHead : Bytes := [0, 0, 0, 0, 0, 0, 0, 0, 0, 0, 0xff, 0xff]

def IsMapped (ip : Ip6) : Prop := ip.octets.take 12 = mappedHead

end Ip6

theorem Ip4.octets_mapped (ip : Ip4) : ip.mapped.octets = Ip6.mappedHead ++ ip.octets := by
  have hhead : [0, 0, 0, 0, 0, 0xffff].flatMap Bytes.ofUInt16 = Ip6.mappedHead := by decide
  have hgroups : ip.mapped.groups = [0, 0, 0, 0, 0, 0xffff] ++ ip.groups := rfl
  have htail : ip.groups.flatMap Bytes.ofUInt16 = ip.octets := by
    simp only [groups, List.flatMap_cons, List.flatMap_nil, Bytes.ofUInt16_toUInt16]
    rfl
  rw [Ip6.octets, hgroups, List.flatMap_append, hhead, htail]

theorem Ip6.octets_inj {a b : Ip6} : a.octets = b.octets ↔ a = b := by
  constructor
  · intro h
    rw [← a.ofOctets_octets [], ← b.ofOctets_octets [], h]
  · rintro rfl
    rfl

theorem Ip6.isMapped_iff_exists {ip : Ip6} : ip.IsMapped ↔ ∃ ip4 : Ip4, ip = ip4.mapped := by
  constructor
  · intro h
    refine ⟨⟨UInt8.ofNat (ip.g6.toNat / 256), UInt8.ofNat ip.g6.toNat,
      UInt8.ofNat (ip.g7.toNat / 256), UInt8.ofNat ip.g7.toNat⟩, octets_inj.mp ?_⟩
    rw [Ip4.octets_mapped, ← h]
    exact (List.take_append_drop 12 ip.octets).symm
  · rintro ⟨ip4, rfl⟩
    rw [IsMapped, ip4.octets_mapped]
    rfl

namespace Ip

variable {a b : Ip}

theorem canonical_eq_iff : a.canonical = b.canonical ↔ a.octets = b.octets := by
  constructor
  · intro h
    rw [← a.octets_canonical, ← b.octets_canonical, h]
  · intro h
    rw [← a.canonical_ofOctets [], ← b.canonical_ofOctets [], h]

theorem not_isMapped_of_canonical {ip : Ip6} (h : (Ip.v6 ip).canonical = .v6 ip) :
    ¬ip.IsMapped := by
  intro hmapped
  obtain ⟨ip4, rfl⟩ := Ip6.isMapped_iff_exists.mp hmapped
  rw [ip4.canonical_mapped] at h
  cases h

end Ip

namespace SocketAddress

theorem forFamily_cases (family : Family) (target : SocketAddress) :
    target.forFamily family = target ∨
      (∃ ip port, target = .v4 ip port ∧ target.forFamily family = .v6 ip.mapped port 0 0) ∨
      ∃ ip port flow scope,
        target = .v6 (Ip4.mapped ip) port flow scope ∧ target.forFamily family = .v4 ip port := by
  cases family with
  | ip6 =>
    cases target with
    | v4 ip port => exact .inr (.inl ⟨ip, port, rfl, rfl⟩)
    | v6 ip port flow scope => exact .inl rfl
  | ip4 =>
    cases target with
    | v4 ip port => exact .inl rfl
    | v6 ip port flow scope =>
      simp only [forFamily, SocketAddress.ip]
      cases hip : ip.unmapped? with
      | none => exact .inl rfl
      | some ip4 =>
        exact .inr (.inr ⟨ip4, port, flow, scope, by rw [Ip6.eq_mapped hip], rfl⟩)

theorem port_forFamily (family : Family) (target : SocketAddress) :
    (target.forFamily family).port = target.port := by
  obtain h | ⟨ip, port, rfl, h⟩ | ⟨ip, port, flow, scope, rfl, h⟩ := forFamily_cases family target
    <;> rw [h] <;> rfl

theorem octets_forFamily (family : Family) (target : SocketAddress) :
    (target.forFamily family).ip.octets = target.ip.octets := by
  obtain h | ⟨ip, port, rfl, h⟩ | ⟨ip, port, flow, scope, rfl, h⟩ := forFamily_cases family target
    <;> rw [h] <;> rfl

end SocketAddress

namespace Endpoint

variable {a b : SocketAddress}

theorem ofSocket_eq_iff :
    ofSocket a = ofSocket b ↔ a.port = b.port ∧ a.ip.octets = b.ip.octets := by
  constructor
  · intro h
    exact ⟨congrArg port h, Ip.canonical_eq_iff.mp (congrArg ip h)⟩
  · rintro ⟨hport, hoctets⟩
    exact Endpoint.ext (Ip.canonical_eq_iff.mpr hoctets) hport

theorem not_isMapped (e : Endpoint) {ip : Ip6} (h : e.ip = .v6 ip) : ¬ip.IsMapped :=
  Ip.not_isMapped_of_canonical (h ▸ e.canonical)

theorem toEntry_inj {d e : Endpoint} : d.toEntry = e.toEntry ↔ d = e := by
  constructor
  · intro h
    rw [← d.ofEntry_toEntry, ← e.ofEntry_toEntry, h]
  · rintro rfl
    rfl

theorem ofSocket_forFamily (family : SocketAddress.Family) (target : SocketAddress) :
    ofSocket (target.forFamily family) = ofSocket target :=
  ofSocket_eq_iff.mpr ⟨target.port_forFamily family, target.octets_forFamily family⟩

end Endpoint
end ServerDiscovery
