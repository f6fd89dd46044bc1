import ServerDiscovery.Host
import ServerDiscovery.Simulation.Waiting

/-! A socket that is wired to one host. The host takes each datagram the moment it is sent, and what
it answers is there at once, from the address that was written to. -/

namespace ServerDiscovery.Simulation

open Client

structure Link where
  now : Time
  deadline : Time
  /-- Where the host sees the client. -/
  client : SocketAddress
  host : Host
  replies : List (Bytes × SocketAddress)

namespace Link

def new (now : Time) (client : SocketAddress) (host : Host) : Link := ⟨now, 0, client, host, []⟩

def deliver (l : Link) (target : SocketAddress) (datagram : Bytes) : Link :=
  let (answers, host) := l.host.answer l.now datagram l.client
  { l with host, replies := l.replies ++ answers.map fun payload => (payload, target) }

def send (l : Link) (target : SocketAddress) (datagram : Bytes) : Nat → Link
  | 0 => l
  | copies + 1 => (l.deliver target datagram).send target datagram copies

def receive (l : Link) : Reception × Link :=
  let wait := Wait.of l.now l.deadline none <|
    l.replies.head?.map fun (payload, source) => (l.now, .datagram payload source)
  (wait.reception,
    { l with now := wait.ends, replies := if wait.consumes then l.replies.tail else l.replies })

instance : Transport Link where
  now := Link.now
  readUntil deadline l := { l with deadline }
  writeUntil _ l := l
  send target datagram copies l := l.send target datagram copies
  receive := Link.receive

end Link
end ServerDiscovery.Simulation
