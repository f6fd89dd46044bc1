import ServerDiscovery.Address.Text
import ServerDiscovery.Text.Utf8

/-! An endpoint is a host and a port in canonical form: two socket addresses of one host and port
are one endpoint, whatever family, flow label or scope they were written with. -/

namespace ServerDiscovery

structure Endpoint where
  ip : Ip
  port : UInt16
  canonical : ip.canonical = ip

namespace Endpoint

@[ext] theorem ext {a b : Endpoint} (ip : a.ip = b.ip) (port : a.port = b.port) : a = b := by
  cases a
  cases b
  simp_all

instance : DecidableEq Endpoint := fun a b =>
  decidable_of_iff (a.ip = b.ip ∧ a.port = b.port)
    ⟨fun h => ext h.1 h.2, fun h => h ▸ ⟨rfl, rfl⟩⟩

def entrySize : Nat := 18

def ofIp (ip : Ip) (port : UInt16) : Endpoint :=
  ⟨ip.canonical, port, ip.canonical_canonical⟩

def ofSocket (a : SocketAddress) : Endpoint :=
  ofIp a.ip a.port

def toSocket (e : Endpoint) : SocketAddress :=
  .ofIp e.ip e.port

/-- An entry of a server list: the sixteen bytes of the address, then the port. -/
def toEntry (e : Endpoint) : Bytes :=
  e.ip.octets ++ Bytes.ofUInt16 e.port

/-- The endpoint of an entry, missing bytes counting as zero. -/
def ofEntry (entry : Bytes) : Endpoint :=
  ofIp (.v6 (Ip6.ofOctets entry)) (Bytes.toUInt16 (entry.getD 16 0) (entry.getD 17 0))

def toString (e : Endpoint) : String := e.toSocket.toString

def ofString? (s : String) : Option Endpoint :=
  ofSocket <$> SocketAddress.ofString? s

/-- IPv4 before IPv6, then by address, then by port. -/
def rank (e : Endpoint) : Nat :=
  e.ip.rank * 65536 + e.port.toNat

def le (a b : Endpoint) : Bool := a.rank ≤ b.rank

def sort (es : List Endpoint) : List Endpoint := es.mergeSort le

/-- Each endpoint at its first place only. -/
def distinct (es : List Endpoint) : List Endpoint := es.eraseDups

end Endpoint
end ServerDiscovery
