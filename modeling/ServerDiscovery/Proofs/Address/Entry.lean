import Mathlib.Tactic.SplitIfs
import ServerDiscovery.Address.Endpoint

/-! An endpoint is read from an entry of a server list as it was written into it, in whichever of its
two forms an IPv4 address is meant; and it is written again as the entry that it was read from. -/

namespace ServerDiscovery

theorem Bytes.bytes_toUInt16 (hi lo : UInt8) :
    UInt8.ofNat ((toUInt16 hi lo).toNat / 256) = hi ∧ UInt8.ofNat (toUInt16 hi lo).toNat = lo := by
  have hhi := hi.toNat_lt
  have hlo := lo.toNat_lt
  constructor
  · apply UInt8.toNat_inj.mp
    simp only [toUInt16, UInt16.toNat_ofNat', UInt8.toNat_ofNat']
    omega
  · apply UInt8.toNat_inj.mp
    simp only [toUInt16, UInt16.toNat_ofNat', UInt8.toNat_ofNat']
    omega

theorem Bytes.ofUInt16_toUInt16 (hi lo : UInt8) : ofUInt16 (toUInt16 hi lo) = [hi, lo] := by
  obtain ⟨hhi, hlo⟩ := bytes_toUInt16 hi lo
  rw [ofUInt16, hhi, hlo]

theorem Bytes.flatMap_words {n : Nat} {bs : Bytes} (h : bs.length = 2 * n) :
    ((List.range n).map fun i => toUInt16 (bs.getD (2 * i) 0) (bs.getD (2 * i + 1) 0)).flatMap
      ofUInt16 = bs := by
  induction n generalizing bs with
  | zero => exact (List.eq_nil_of_length_eq_zero h).symm
  | succ n ih =>
    rcases bs with _ | ⟨hi, _ | ⟨lo, rest⟩⟩
    case cons.cons =>
      have hrest : rest.length = 2 * n := by
        simp only [List.length_cons] at h
        omega
      have hwords := ih hrest
      rw [List.range_succ_eq_map, List.map_cons, List.map_map, List.flatMap_cons]
      show ofUInt16 (toUInt16 hi lo) ++ _ = _
      rw [ofUInt16_toUInt16]
      exact congrArg (fun bs => hi :: lo :: bs) hwords
    all_goals
      simp only [List.length_cons, List.length_nil] at h
      omega

theorem Ip4.unmapped?_mapped (ip : Ip4) : ip.mapped.unmapped? = some ip := by
  obtain ⟨hab, hb⟩ := Bytes.bytes_toUInt16 ip.a ip.b
  obtain ⟨hcd, hd⟩ := Bytes.bytes_toUInt16 ip.c ip.d
  simp only [Ip6.unmapped?, mapped, and_self, if_true, hab, hb, hcd, hd]

theorem Ip4.canonical_mapped (ip : Ip4) : (Ip.v6 ip.mapped).canonical = .v4 ip := by
  rw [Ip.canonical, unmapped?_mapped]

theorem Ip6.eq_mapped {ip : Ip6} {ip4 : Ip4} (h : ip.unmapped? = some ip4) : ip = ip4.mapped := by
  obtain ⟨g0, g1, g2, g3, g4, g5, g6, g7⟩ := ip
  unfold Ip6.unmapped? at h
  split_ifs at h with hzero
  obtain ⟨rfl, rfl, rfl, rfl, rfl, rfl⟩ := hzero
  cases h
  simp only [Ip4.mapped, Bytes.toUInt16_bytes]

theorem Ip.octets_canonical (ip : Ip) : ip.canonical.octets = ip.octets := by
  cases ip with
  | v4 ip => rfl
  | v6 ip =>
    simp only [canonical]
    cases hip : ip.unmapped? with
    | some ip4 => exact congrArg Ip6.octets (Ip6.eq_mapped hip).symm
    | none => rfl

theorem Ip6.ofOctets_octets (ip : Ip6) (rest : Bytes) : ofOctets (ip.octets ++ rest) = ip := by
  obtain ⟨g0, g1, g2, g3, g4, g5, g6, g7⟩ := ip
  have hword := Bytes.toUInt16_bytes
  exact (Ip6.mk.injEq ..).mpr ⟨hword g0, hword g1, hword g2, hword g3, hword g4, hword g5, hword g6,
    hword g7⟩

theorem Ip.canonical_ofOctets (ip : Ip) (rest : Bytes) :
    (Ip.v6 (Ip6.ofOctets (ip.octets ++ rest))).canonical = ip.canonical := by
  cases ip with
  | v4 ip => rw [Ip.octets, Ip6.ofOctets_octets, Ip4.canonical_mapped]; rfl
  | v6 ip => rw [Ip.octets, Ip6.ofOctets_octets]

namespace Endpoint

theorem ofSocket_mapped (ip : Ip4) (port : UInt16) (flow scope : UInt32) :
    ofSocket (.v6 ip.mapped port flow scope) = ofSocket (.v4 ip port) :=
  Endpoint.ext ip.canonical_mapped rfl

theorem length_toEntry (e : Endpoint) : e.toEntry.length = entrySize := by
  obtain ⟨ip, port, canonical⟩ := e
  cases ip <;> rfl

theorem ofEntry_toEntry (e : Endpoint) : ofEntry e.toEntry = e := by
  obtain ⟨ip, port, canonical⟩ := e
  have hport := Bytes.toUInt16_bytes port
  refine Endpoint.ext ((ip.canonical_ofOctets (Bytes.ofUInt16 port)).trans canonical) ?_
  cases ip <;> exact hport

theorem toEntry_ofEntry {entry : Bytes} (h : entry.length = entrySize) :
    (ofEntry entry).toEntry = entry := by
  have hoctets := Ip.octets_canonical (.v6 (Ip6.ofOctets entry))
  calc (ofEntry entry).toEntry
      = (Ip.v6 (Ip6.ofOctets entry)).canonical.octets
          ++ Bytes.ofUInt16 (Bytes.toUInt16 (entry.getD 16 0) (entry.getD 17 0)) := rfl
    _ = (Ip6.ofOctets entry).octets
          ++ Bytes.ofUInt16 (Bytes.toUInt16 (entry.getD 16 0) (entry.getD 17 0)) := by
      rw [hoctets]
      rfl
    _ = entry := Bytes.flatMap_words (n := 9) h

/-- What an IPv4 address is reported as: itself, its mapped form, or an entry of a list. -/
def formsOfV4 (ip : Ip4) (port : UInt16) (flow scope : UInt32) : List Endpoint :=
  [ofSocket (.v4 ip port), ofSocket (.v6 ip.mapped port flow scope),
    ofEntry (ip.mapped.octets ++ Bytes.ofUInt16 port)]

theorem mem_formsOfV4 {ip : Ip4} {port : UInt16} {flow scope : UInt32} {e : Endpoint} :
    e ∈ formsOfV4 ip port flow scope ↔ e = ofSocket (.v4 ip port) := by
  have hentry : ofEntry (ip.mapped.octets ++ Bytes.ofUInt16 port) = ofSocket (.v4 ip port) :=
    ofEntry_toEntry (ofSocket (.v4 ip port))
  simp only [formsOfV4, ofSocket_mapped, hentry, List.mem_cons, List.not_mem_nil, or_false, or_self]

end Endpoint
end ServerDiscovery
