import ServerDiscovery.Address.Ip

/-! Where a datagram comes from or goes to, as a socket knows it. -/

namespace ServerDiscovery

inductive SocketAddress where
  | v4 (ip : Ip4) (port : UInt16)
  | v6 (ip : Ip6) (port : UInt16) (flow scope : UInt32)
  deriving DecidableEq, Repr

namespace SocketAddress

def ip : SocketAddress → Ip
  | v4 ip _ => .v4 ip
  | v6 ip _ _ _ => .v6 ip

def port : SocketAddress → UInt16
  | v4 _ port => port
  | v6 _ port _ _ => port

def ofIp (ip : Ip) (port : UInt16) : SocketAddress :=
  match ip with
  | .v4 ip => v4 ip port
  | .v6 ip => v6 ip port 0 0

def flow : SocketAddress → UInt32
  | v4 _ _ => 0
  | v6 _ _ flow _ => flow

def scope : SocketAddress → UInt32
  | v4 _ _ => 0
  | v6 _ _ _ scope => scope

/-- IPv4 before IPv6, then by address, port, flow label and scope. -/
def rank (a : SocketAddress) : Nat :=
  ((a.ip.rank * 65536 + a.port.toNat) * 4294967296 + a.flow.toNat) * 4294967296 + a.scope.toNat

inductive Family where
  | ip4
  | ip6
  deriving DecidableEq, Repr

/-- A target as a socket of a family addresses it: IPv6 takes IPv4 targets in their mapped form,
and IPv4 takes mapped targets back. -/
def forFamily (family : Family) (target : SocketAddress) : SocketAddress :=
  match family, target.ip with
  | .ip6, .v4 ip => v6 ip.mapped target.port 0 0
  | .ip4, .v6 ip => match ip.unmapped? with
    | some ip4 => v4 ip4 target.port
    | none => target
  | _, _ => target

end SocketAddress
end ServerDiscovery
