import ServerDiscovery.Client.Session
import ServerDiscovery.Simulation.Visit
import ServerDiscovery.Survey.Crew

/-! Many workers at one time on one network. Each runs until it has to wait; then the clock goes on
to the worker that is due first, and of workers due together the one that began to wait first. -/

namespace ServerDiscovery.Simulation

open Client Survey

/-- How far a dialogue gets without letting time pass. -/
inductive Progress (α : Type) where
  | finished (a : α) (socket : Socket)
  | waiting (socket : Socket) (next : Dialogue α)

/-- Runs a dialogue until it has to wait. -/
def proceed : Dialogue α → Socket → Option (Progress α)
  | .finish a, k => some (.finished a k)
  | .stall, _ => none
  | .clock next, k => proceed (next k.now) k
  | .readUntil deadline next, k => proceed next (Transport.readUntil deadline k)
  | .writeUntil deadline next, k => proceed next (Transport.writeUntil deadline k)
  | .send target datagram copies next, k => proceed next (k.send target datagram copies)
  | .receive next, k =>
    let (r, k') := k.receive
    if k'.now ≤ k.now then proceed (next r) k' else some (.waiting k' (next r))

structure Worker (ι : Type) where
  /-- Addresses of its own; without them it takes addresses off the queue of the crew. -/
  own : Option (List ι)
  session : Session
  inbox : Inbox
  deadline : Time

/-- A worker that waits, and how its query goes on then. -/
structure Sleeper (ι ρ : Type) where
  wakes : Time
  worker : Worker ι
  next : Dialogue (Except Failure ρ × Session)

structure Floor (ι ρ : Type) where
  world : World
  /-- How many sockets have been opened, or refused. -/
  opened : Nat
  /-- Sockets beyond so many are refused. -/
  sockets : Option Nat
  supplies : Nat → Token.Supply
  crew : Crew ι ρ
  asleep : List (Sleeper ι ρ)

namespace Floor

variable {ι ρ : Type}

def nextJob (f : Floor ι ρ) (w : Worker ι) : Option (ι × Worker ι × Floor ι ρ) :=
  match w.own with
  | some [] => none
  | some (job :: own) => some (job, { w with own := some own }, f)
  | none => f.crew.pull.map fun (job, crew) => (job, w, { f with crew })

/-- Puts a worker behind those that wake no later. -/
def sleep (f : Floor ι ρ) (s : Sleeper ι ρ) : Floor ι ρ :=
  { f with asleep := f.asleep.takeWhile (·.wakes ≤ s.wakes) ++ s
             :: f.asleep.dropWhile (·.wakes ≤ s.wakes) }

def close (f : Floor ι ρ) (ending : Except Failure Unit) : Floor ι ρ :=
  { f with crew := f.crew.close ending }

/-- Lets a worker go on with its query, and with the next ones, until it waits or ends; `jobs`
bounds the queries. -/
def carryOn (query : ι → Session → Dialogue (Except Failure ρ × Session)) :
    Nat → Worker ι → Dialogue (Except Failure ρ × Session) → Floor ι ρ → Option (Floor ι ρ)
  | 0, _, _, _ => none
  | jobs + 1, w, d, f => do
    match ← proceed d ⟨f.world, w.inbox, w.deadline, .empty⟩ with
    | .waiting socket next =>
      let w := { w with inbox := socket.inbox, deadline := socket.deadline }
      let world := { socket.world with now := f.world.now }
      return { f with world }.sleep ⟨socket.now, w, next⟩
    | .finished (result, session) socket =>
      let w := { w with session, inbox := socket.inbox, deadline := socket.deadline }
      let f := { f with world := socket.world }
      match f.crew.report result with
      | .error failure => return f.close (.error failure)
      | .ok crew =>
        let f := { f with crew }
        match f.nextJob w with
        | none => return f.close (.ok ())
        | some (job, w, f) => carryOn query jobs w (query job w.session) f

/-- A bound on the queries that one worker still carries out. -/
def jobs (f : Floor ι ρ) (w : Worker ι) : Nat :=
  f.crew.queue.length + (w.own.getD []).length + 1

def hire (query : ι → Session → Dialogue (Except Failure ρ × Session)) (settings : Client.Settings)
    (own : Option (List ι)) (f : Floor ι ρ) : Option (Floor ι ρ) :=
  let number := f.opened
  let f := { f with opened := f.opened + 1 }
  if f.sockets.any (· ≤ number) then
    some (f.close (.error (.socket "no free local port")))
  else
    let session := Session.new settings (f.supplies number)
    match f.nextJob ⟨own, session, .empty, 0⟩ with
    | none => some (f.close (.ok ()))
    | some (job, w, f) => carryOn query (f.jobs w) w (query job w.session) f

/-- Wakes worker after worker until all have ended; `eager` ends at the first error. -/
def settle (query : ι → Session → Dialogue (Except Failure ρ × Session)) (eager : Bool) :
    Nat → Floor ι ρ → Option (Floor ι ρ)
  | 0, _ => none
  | wakes + 1, f =>
    match f.asleep with
    | [] => some f
    | s :: asleep =>
      if eager ∧ f.crew.hasFailed ∧ f.world.now < s.wakes then some { f with asleep := [] }
      else do
        let f := { f with asleep, world := { f.world with now := s.wakes } }
        let f ← carryOn query (f.jobs s.worker) s.worker s.next f
        settle query eager wakes f

end Floor
end ServerDiscovery.Simulation
