import ServerDiscovery.Simulation.Inbox
import ServerDiscovery.Simulation.Journal
import ServerDiscovery.Simulation.Waiting

/-! A simulated network of stations under one clock, and the sockets on it. What a station sends
back reaches the socket that it heard; each socket has an inbox of its own. -/

namespace ServerDiscovery.Simulation

open Client

structure World where
  now : Time
  stations : List Station
  /-- So many of the next sends fail. -/
  failing : Nat
  cancelAt : Option Time

inductive Fate where
  | failed
  | unreachable
  | heard (traffic : Traffic) (stranger : Bool)
  deriving DecidableEq, Repr

structure Sending where
  target : SocketAddress
  fate : Fate
  size : Nat
  deriving DecidableEq

structure Socket where
  world : World
  inbox : Inbox
  deadline : Time
  journal : Journal Sending

namespace World

/-- Hands a datagram to the first station at an endpoint. -/
def deliver (now : Time) (e : Endpoint) (datagram : Bytes) :
    List Station → Option (Fate × List Delivery × List Station)
  | [] => none
  | s :: rest =>
    if s.endpoint = e then
      let (deliveries, s') := s.hear now datagram
      some (.heard (s.traffic datagram) (s.isStranger datagram), deliveries, s' :: rest)
    else match deliver now e datagram rest with
      | some (fate, deliveries, rest) => some (fate, deliveries, s :: rest)
      | none => none

def send (w : World) (target : SocketAddress) (datagram : Bytes) : Fate × List Delivery × World :=
  if 0 < w.failing then (.failed, [], { w with failing := w.failing - 1 })
  else match deliver w.now (.ofSocket target) datagram w.stations with
    | some (fate, deliveries, stations) => (fate, deliveries, { w with stations })
    | none => (.unreachable, [], w)

def advance (w : World) (span : Time) : World := { w with now := w.now + span }

/-- Cancels whatever runs or will run, after a span; an earlier cancellation stays. -/
def cancel (w : World) (span : Time) : World :=
  let time := w.now + span
  { w with cancelAt := some (w.cancelAt.elim time (min time)) }

end World

namespace Socket

def new (world : World) : Socket := ⟨world, .empty, 0, .empty⟩

def now (k : Socket) : Time := k.world.now

/-- Sends so many copies, but none after one that fails. -/
def send (k : Socket) (target : SocketAddress) (datagram : Bytes) : Nat → Socket
  | 0 => k
  | copies + 1 =>
    let (fate, deliveries, world) := k.world.send target datagram
    let journal := k.journal.noteSent k.now ⟨target, fate, datagram.length⟩ 1
    let k := { k with world, inbox := deliveries.foldl Inbox.insert k.inbox, journal }
    if fate = .failed then k else k.send target datagram copies

def receive (k : Socket) : Reception × Socket :=
  let next := k.inbox.pop?
  let wait := Wait.of k.now k.deadline k.world.cancelAt <|
    next.map fun (d, _) => (d.due, .datagram d.payload d.source)
  let journal := match event? wait.reception with
    | some e => k.journal.note wait.ends e
    | none => k.journal
  let inbox := match next with
    | some (_, rest) => if wait.consumes then rest else k.inbox
    | none => k.inbox
  (wait.reception, { k with world := { k.world with now := wait.ends }, journal, inbox })

instance : Transport Socket where
  now := Socket.now
  readUntil deadline k :=
    { k with deadline, journal := k.journal.note k.now (.readUntil (deadline - k.now)) }
  writeUntil deadline k :=
    { k with journal := k.journal.note k.now (.writeUntil (deadline - k.now)) }
  send target datagram copies k := k.send target datagram copies
  receive := Socket.receive

def fresh (k : Socket) : Socket := { k with journal := .empty }

end Socket
end ServerDiscovery.Simulation
