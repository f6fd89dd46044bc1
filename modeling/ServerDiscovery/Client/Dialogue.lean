import ServerDiscovery.Address.Socket
import ServerDiscovery.Time

/-! A client as what it does with its socket: a tree of effects with a branch for each thing that
may be received. Whoever runs it supplies the clock and the network. Only receiving takes time. -/

namespace ServerDiscovery.Client

inductive Reception where
  | datagram (payload : Bytes) (source : SocketAddress)
  | timedOut
  | failed
  | cancelled
  deriving DecidableEq, Repr

inductive Dialogue (α : Type) where
  | finish (a : α)
  /-- The patience given to a wait is used up. -/
  | stall
  | clock (next : Time → Dialogue α)
  | readUntil (deadline : Time) (next : Dialogue α)
  | writeUntil (deadline : Time) (next : Dialogue α)
  /-- Copies back to back, until one fails. -/
  | send (target : SocketAddress) (datagram : Bytes) (copies : Nat) (next : Dialogue α)
  | receive (next : Reception → Dialogue α)

/-- A socket with its clock and its network. -/
class Transport (σ : Type) where
  now : σ → Time
  readUntil : Time → σ → σ
  writeUntil : Time → σ → σ
  send : SocketAddress → Bytes → Nat → σ → σ
  receive : σ → Reception × σ

namespace Dialogue

def bind : Dialogue α → (α → Dialogue β) → Dialogue β
  | finish a, f => f a
  | stall, _ => stall
  | clock next, f => clock fun now => (next now).bind f
  | readUntil deadline next, f => readUntil deadline (next.bind f)
  | writeUntil deadline next, f => writeUntil deadline (next.bind f)
  | send target datagram copies next, f => send target datagram copies (next.bind f)
  | receive next, f => receive fun r => (next r).bind f

instance : Monad Dialogue where
  pure := finish
  bind := bind

def now : Dialogue Time := clock finish

/-- The result of a dialogue and the socket after it; nothing if it stalls. -/
def run [Transport σ] : Dialogue α → σ → Option (α × σ)
  | finish a, s => some (a, s)
  | stall, _ => none
  | clock next, s => (next (Transport.now s)).run s
  | readUntil deadline next, s => next.run (Transport.readUntil deadline s)
  | writeUntil deadline next, s => next.run (Transport.writeUntil deadline s)
  | send target datagram copies next, s => next.run (Transport.send target datagram copies s)
  | receive next, s =>
    let (r, s) := Transport.receive s
    (next r).run s

theorem run_bind [Transport σ] (d : Dialogue α) (f : α → Dialogue β) (s : σ) :
    (d >>= f).run s = (d.run s).bind fun p => (f p.1).run p.2 := by
  change (d.bind f).run s = _
  induction d generalizing s with
  | finish a => rfl
  | stall => rfl
  | clock next ih => exact ih _ _
  | readUntil deadline next ih => exact ih _
  | writeUntil deadline next ih => exact ih _
  | send target datagram copies next ih => exact ih _
  | receive next ih => exact ih _ _

end Dialogue
end ServerDiscovery.Client
