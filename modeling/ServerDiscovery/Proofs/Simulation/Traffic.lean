import Mathlib.Algebra.Order.Ring.Nat
import ServerDiscovery.Proofs.Simulation.Schedule

/-! How much an inquiry sends. Without a reply the budget sets a bound; but a reply that is not
acceptable ends an attempt before its time, and the next one sends twice as much. -/

namespace ServerDiscovery.Simulation.Script

open Client Inquiry Attempt

variable {α : Type} {s s' : Script} {accept : Accept α} {pacing : Pacing} {target : SocketAddress}
  {request : Bytes} {result : Except Failure α} {rounds : List (Round Script)} {N : Nat}

end ServerDiscovery.Simulation.Script
