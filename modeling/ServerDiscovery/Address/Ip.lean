import ServerDiscovery.Bytes

/-! Internet addresses. An IPv4 address may be written as an IPv6 one, whose first six groups then
are five zeros and `ffff`; the canonical form of an address undoes that. -/

namespace ServerDiscovery

structure Ip4 where
  a : UInt8
  b : UInt8
  c : UInt8
  d : UInt8
  deriving DecidableEq, Repr

structure Ip6 where
  g0 : UInt16
  g1 : UInt16
  g2 : UInt16
  g3 : UInt16
  g4 : UInt16
  g5 : UInt16
  g6 : UInt16
  g7 : UInt16
  deriving DecidableEq, Repr

inductive Ip where
  | v4 (ip : Ip4)
  | v6 (ip : Ip6)
  deriving DecidableEq, Repr

namespace Ip4

def octets (ip : Ip4) : Bytes := [ip.a, ip.b, ip.c, ip.d]

/-- The two groups that an IPv4 address fills in an IPv6 one. -/
def groups (ip : Ip4) : List UInt16 := [Bytes.toUInt16 ip.a ip.b, Bytes.toUInt16 ip.c ip.d]

/-- The address as IPv6 writes it. -/
def mapped (ip : Ip4) : Ip6 :=
  ⟨0, 0, 0, 0, 0, 0xffff, Bytes.toUInt16 ip.a ip.b, Bytes.toUInt16 ip.c ip.d⟩

end Ip4

namespace Ip6

def groups (ip : Ip6) : List UInt16 :=
  [ip.g0, ip.g1, ip.g2, ip.g3, ip.g4, ip.g5, ip.g6, ip.g7]

/-- The address of the first eight groups, missing ones counting as zero. -/
def ofGroups (gs : List UInt16) : Ip6 :=
  let g i := gs.getD i 0
  ⟨g 0, g 1, g 2, g 3, g 4, g 5, g 6, g 7⟩

def octets (ip : Ip6) : Bytes := ip.groups.flatMap Bytes.ofUInt16

/-- The address of sixteen bytes, missing ones counting as zero. -/
def ofOctets (bs : Bytes) : Ip6 :=
  let g i := Bytes.toUInt16 (bs.getD (2 * i) 0) (bs.getD (2 * i + 1) 0)
  ⟨g 0, g 1, g 2, g 3, g 4, g 5, g 6, g 7⟩

/-- The IPv4 address that an IPv6 one stands for. -/
def unmapped? (ip : Ip6) : Option Ip4 :=
  if ip.g0 = 0 ∧ ip.g1 = 0 ∧ ip.g2 = 0 ∧ ip.g3 = 0 ∧ ip.g4 = 0 ∧ ip.g5 = 0xffff then
    some ⟨UInt8.ofNat (ip.g6.toNat / 256), UInt8.ofNat ip.g6.toNat,
      UInt8.ofNat (ip.g7.toNat / 256), UInt8.ofNat ip.g7.toNat⟩
  else none

end Ip6

namespace Ip

/-- The sixteen bytes of an address, IPv4 in the form that IPv6 gives it. -/
def octets : Ip → Bytes
  | v4 ip => ip.mapped.octets
  | v6 ip => ip.octets

def canonical : Ip → Ip
  | v4 ip => v4 ip
  | v6 ip => match ip.unmapped? with
    | some ip4 => v4 ip4
    | none => v6 ip

/-- Any IPv4 address counts below any IPv6 one, and within a family numbers decide. -/
def rank : Ip → Nat
  | v4 ip => ip.octets.foldl (fun n b => n * 256 + b.toNat) 0
  | v6 ip => 4294967296 + ip.groups.foldl (fun n g => n * 65536 + g.toNat) 0

theorem canonical_canonical (ip : Ip) : ip.canonical.canonical = ip.canonical := by
  cases ip with
  | v4 ip => rfl
  | v6 ip =>
    simp only [canonical]
    cases h : ip.unmapped? with
    | some ip4 => rfl
    | none => simp only [h]

end Ip
end ServerDiscovery
