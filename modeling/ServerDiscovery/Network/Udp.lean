import ServerDiscovery.Client.Dialogue
import ServerDiscovery.Packet.Frame
import Std.Async.Select
import Std.Async.Timer
import Std.Async.UDP

/-! Sockets, the clock and the random bytes of the machine. What is sent and when is decided by the
dialogue that runs over them. -/

namespace ServerDiscovery.Network

open Client
open Std.Async

def toSystem : SocketAddress → Std.Net.SocketAddress
  | .v4 ip port => .v4 ⟨⟨#v[ip.a, ip.b, ip.c, ip.d]⟩, port⟩
  | .v6 ip port _ _ =>
    .v6 ⟨⟨#v[ip.g0, ip.g1, ip.g2, ip.g3, ip.g4, ip.g5, ip.g6, ip.g7]⟩, port⟩

def ofSystem : Std.Net.SocketAddress → SocketAddress
  | .v4 ⟨⟨o⟩, port⟩ => .v4 ⟨o[0], o[1], o[2], o[3]⟩ port
  | .v6 ⟨⟨g⟩, port⟩ => .v6 ⟨g[0], g[1], g[2], g[3], g[4], g[5], g[6], g[7]⟩ port 0 0

def randomSeed : IO Nat := do
  return (← IO.getRandomBytes 8).toList.foldl (fun n b => n * 256 + b.toNat) 0

structure Line where
  socket : UDP.Socket
  family : SocketAddress.Family

namespace Line

def bound (a : SocketAddress) : IO Line := do
  let socket ← UDP.Socket.mk
  socket.bind (toSystem a)
  return ⟨socket, match a with | .v4 .. => .ip4 | .v6 .. => .ip6⟩

/-- A socket on a given address, or on any: one for both families if the machine has such. -/
def forBind (bind : Option SocketAddress) : IO Line :=
  match bind with
  | some a => bound a
  | none => do
    try bound (.v6 (Ip6.ofGroups []) 0 0 0)
    catch _ => bound (.v4 ⟨0, 0, 0, 0⟩ 0)

def send (l : Line) (target : SocketAddress) (datagram : Bytes) : IO Unit :=
  (l.socket.send ⟨datagram.toArray⟩ (some (toSystem (target.forFamily l.family)))).block

/-- Sends so many copies, but none after one that fails. -/
def sendCopies (l : Line) (target : SocketAddress) (datagram : Bytes) : Nat → IO Unit
  | 0 => return
  | copies + 1 => do
    let sent ← try l.send target datagram; pure true catch _ => pure false
    if sent then l.sendCopies target datagram copies

def reception (arrived : ByteArray × Option Std.Net.SocketAddress) : Reception :=
  match arrived with
  | (payload, some source) => .datagram payload.toList (ofSystem source)
  | (_, none) => .failed

def receive (l : Line) (deadline : Time) : IO Reception := do
  let left := deadline - (← IO.monoMsNow)
  let wait : Async Reception := do
    let elapsed ← Selector.sleep (Std.Time.Millisecond.Offset.ofNat left)
    Selectable.one #[
      .case (l.socket.recvSelector (UInt64.ofNat Packet.maxSize)) fun r => return reception r,
      .case elapsed fun _ => return .timedOut]
  try wait.block catch _ => return .failed

/-- Carries out a dialogue whose receptions last until a deadline; it gives nothing if it stalls. -/
def converse (l : Line) : Dialogue α → Time → IO (Option α)
  | .finish a, _ => return some a
  | .stall, _ => return none
  | .clock next, deadline => do l.converse (next (← IO.monoMsNow)) deadline
  | .readUntil deadline next, _ => l.converse next deadline
  | .writeUntil _ next, deadline => l.converse next deadline
  | .send target datagram copies next, deadline => do
    l.sendCopies target datagram copies
    l.converse next deadline
  | .receive next, deadline => do l.converse (next (← l.receive deadline)) deadline

end Line
end ServerDiscovery.Network
