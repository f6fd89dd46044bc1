import ServerDiscovery.Client.Dialogue
import ServerDiscovery.Packet.Frame
import ServerDiscovery.Simulation.Journal

/-! What a simulated socket receives next, and when. -/

namespace ServerDiscovery.Simulation

open Client

inductive Arrival where
  | datagram (payload : Bytes) (source : SocketAddress)
  | failure
  deriving DecidableEq, Repr

/-- A datagram is cut to the size of the buffer. -/
def Arrival.reception : Arrival → Reception
  | datagram payload source => .datagram (payload.take Packet.maxSize) source
  | failure => .failed

def event? : Reception → Option (Event σ)
  | .datagram payload source => some (.received source payload.length)
  | .timedOut => some .timedOut
  | .failed => some .failed
  | .cancelled => none

/-- What a wait ends in, at which time, and whether the next arrival is used up by it. -/
structure Wait where
  reception : Reception
  ends : Time
  consumes : Bool

/-- A wait for the next arrival, if there is one, until a deadline; one that is due already comes
even when the deadline has passed, and cancelling cuts a wait short. -/
def Wait.of (now deadline : Time) (cancelAt : Option Time) (next : Option (Time × Arrival)) :
    Wait :=
  let natural : Wait :=
    match next with
    | some (due, arrival) =>
      if due ≤ now ∨ due ≤ deadline then ⟨arrival.reception, max now due, true⟩
      else ⟨.timedOut, max now deadline, false⟩
    | none => ⟨.timedOut, max now deadline, false⟩
  match cancelAt with
  | some cancel =>
    if cancel ≤ now then ⟨.cancelled, now, false⟩
    else if cancel < natural.ends then ⟨.cancelled, cancel, false⟩
    else natural
  | none => natural

end ServerDiscovery.Simulation
