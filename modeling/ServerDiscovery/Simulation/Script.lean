import ServerDiscovery.Client.Inquiry
import ServerDiscovery.Simulation.Journal
import ServerDiscovery.Simulation.Waiting

/-! A socket whose receptions are written down beforehand, strictly in order. -/

namespace ServerDiscovery.Simulation

open Client

/-- An arrival, available from a time on to receptions that begin after so many sends. -/
structure Cue where
  due : Time
  afterSends : Nat
  arrival : Arrival

structure Shot where
  target : SocketAddress
  datagram : Bytes
  failed : Bool
  deriving DecidableEq

structure Script where
  now : Time
  queue : List Cue
  /-- The places of the sends that fail, counted from 0. -/
  failing : List Nat
  cancelAt : Option Time
  deadline : Time
  sends : Nat
  journal : Journal Shot

namespace Script

def new (queue : List Cue) (failing : List Nat) (cancelAt : Option Time) : Script :=
  ⟨0, queue, failing, cancelAt, 0, 0, .empty⟩

def sendsBeforeFailure (s : Script) (copies : Nat) : Nat :=
  s.failing.foldl (fun n i => if s.sends ≤ i then min n (i - s.sends) else n) copies

def send (s : Script) (target : SocketAddress) (datagram : Bytes) (copies : Nat) : Script :=
  let good := s.sendsBeforeFailure copies
  let journal := s.journal.noteSent s.now ⟨target, datagram, false⟩ good
  if good < copies then
    { s with sends := s.sends + good + 1,
             journal := journal.noteSent s.now ⟨target, datagram, true⟩ 1 }
  else { s with sends := s.sends + good, journal }

def next? (s : Script) : Option (Time × Arrival) :=
  match s.queue with
  | cue :: _ => if cue.afterSends ≤ s.sends then some (cue.due, cue.arrival) else none
  | [] => none

def receive (s : Script) : Reception × Script :=
  let wait := Wait.of s.now s.deadline s.cancelAt s.next?
  let journal := match event? wait.reception with
    | some e => s.journal.note wait.ends e
    | none => s.journal
  (wait.reception,
    { s with now := wait.ends, journal, queue := if wait.consumes then s.queue.drop 1 else s.queue })

instance : Transport Script where
  now := Script.now
  readUntil deadline s :=
    { s with deadline, journal := s.journal.note s.now (.readUntil (deadline - s.now)) }
  writeUntil deadline s :=
    { s with journal := s.journal.note s.now (.writeUntil (deadline - s.now)) }
  send target datagram copies s := s.send target datagram copies
  receive := Script.receive

def heardFrom (s : Script) (e : Endpoint) : Nat :=
  s.journal.events.countP fun entry =>
    match entry.2 with
    | .received source _ => Endpoint.ofSocket source = e
    | _ => false

/-- Receptions enough for an inquiry: one for each cue and each send that fails, one for each
doubling of the window until it fills the budget, and one for each doubling of the burst until the
last cue is available. -/
def patience (s : Script) (pacing : Pacing) : Nat :=
  let sends := (s.queue.map Cue.afterSends).foldl max 0
  s.queue.length + s.failing.length + Nat.log2 pacing.budget + Nat.log2 sends + 4

def inquire (s : Script) (pacing : Pacing) (target : SocketAddress) (request : Bytes)
    (accept : Accept α) : Option (Except Failure α × Script) :=
  (Client.inquire pacing target request accept (s.patience pacing)).run s

end Script
end ServerDiscovery.Simulation
