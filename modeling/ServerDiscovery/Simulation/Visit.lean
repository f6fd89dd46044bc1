import ServerDiscovery.Client.Session
import ServerDiscovery.Simulation.Socket

/-! A session on a socket of a simulated network, operation after operation. Replies that come
late stay in the inbox for the operations after it. -/

namespace ServerDiscovery.Simulation

open Client

/-- More receptions than one wait can use up: a burst doubles with every reply that is rejected,
and no network holds that many copies. -/
def patience : Nat := 1000000

structure Visit where
  session : Session
  socket : Socket

namespace Visit

def perform (v : Visit) (q : Query α) : Option (Except Failure α × Visit) :=
  ((q.dialogue v.session).run v.socket).map fun ((result, session), socket) =>
    (result, { session, socket })

def advance (v : Visit) (span : Time) : Visit :=
  { v with socket := { v.socket with world := v.socket.world.advance span } }

def cancel (v : Visit) (span : Time) : Visit :=
  { v with socket := { v.socket with world := v.socket.world.cancel span } }

def isKnownClient (v : Visit) (client : Int32) : Bool :=
  v.socket.world.stations.any fun s => s.clients.contains client

end Visit
end ServerDiscovery.Simulation
