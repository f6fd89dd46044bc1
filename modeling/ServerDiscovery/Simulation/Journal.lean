import ServerDiscovery.Address.Socket
import ServerDiscovery.Time

/-! What a simulated socket was made to do, and when. -/

namespace ServerDiscovery.Simulation

/-- Something that a socket did; `σ` tells one datagram that is sent from another. -/
inductive Event (σ : Type) where
  | readUntil (left : Time)
  | writeUntil (left : Time)
  | sent (what : σ) (copies : Nat)
  | received (source : SocketAddress) (size : Nat)
  | timedOut
  | failed

/-- Events with their times, the latest first. -/
structure Journal (σ : Type) where
  events : List (Time × Event σ)

namespace Journal

variable {σ : Type} [DecidableEq σ]

def empty : Journal σ := ⟨[]⟩

def toList (j : Journal σ) : List (Time × Event σ) := j.events.reverse

def note (j : Journal σ) (now : Time) (e : Event σ) : Journal σ := ⟨(now, e) :: j.events⟩

/-- Notes copies that are sent; equal ones in a row are one event. -/
def noteSent (j : Journal σ) (now : Time) (what : σ) (copies : Nat) : Journal σ :=
  if copies = 0 then j
  else match j.events with
    | (time, .sent before n) :: earlier =>
      if time = now ∧ before = what then ⟨(now, .sent what (n + copies)) :: earlier⟩
      else j.note now (.sent what copies)
    | _ => j.note now (.sent what copies)

end Journal
end ServerDiscovery.Simulation
