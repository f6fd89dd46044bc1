import ServerDiscovery.Simulation.Floor
import ServerDiscovery.Survey.Passes
import ServerDiscovery.Survey.Settings

/-! A survey of a simulated network. -/

namespace ServerDiscovery.Simulation

open Client Survey

structure Base where
  settings : Survey.Settings
  masters : List SocketAddress
  world : World
  opened : Nat
  sockets : Option Nat
  supplies : Nat → Token.Supply

/-- A step of a survey. What it does to the network stays when it fails; it gives nothing if it
would go on for ever. -/
abbrev Expedition (α : Type) := ExceptT Failure (StateT Base Option) α

namespace Expedition

/-- Sets workers to work, one for each list of own addresses, `none` for those that share the queue,
and waits for them. -/
def employ (settings : Client.Settings) (query : ι → Query ρ) (queue : List ι)
    (workers : List (Option (List ι))) (eager : Bool) : Expedition (List ρ) := do
  let base ← get
  let dialogue (job : ι) (s : Session) := (query job).dialogue s
  let floor : Floor ι ρ :=
    ⟨base.world, base.opened, base.sockets, base.supplies, .start queue, []⟩
  let done : Option (Floor ι ρ) := do
    let f ← workers.foldlM (fun f own => f.hire dialogue settings own) floor
    f.settle dialogue eager patience
  match done with
  | none => ExceptT.mk fun _ => none
  | some f =>
    set { base with world := f.world, opened := f.opened }
    MonadExcept.ofExcept f.crew.result

/-- A query of each master by a worker of its own. -/
def askMasters (query : Query ρ) (eager : Bool) : Expedition (List (SocketAddress × ρ)) := do
  let base ← get
  let ask (master : SocketAddress) : Query (SocketAddress × ρ) := do
    modify fun s => s.aim master
    let r ← query
    return (master, r)
  employ base.settings.masterClient ask [] (base.masters.map fun m => some [m]) eager

/-- How many servers each master knows; fails at the first error. -/
def counts : Expedition (List (SocketAddress × Nat)) :=
  askMasters (Query.count patience) true

/-- The servers that the masters list, each once. -/
def addresses : Expedition (List Endpoint) :=
  (fun lists => merge (lists.map Prod.snd)) <$> askMasters (Query.servers patience) false

def records (targets : List Endpoint) : Expedition (List ServerRecord) := do
  let base ← get
  let workers := List.replicate (base.settings.workers targets.length) none
  employ base.settings.serverClient (Query.recordOf patience) targets workers false

def survey : Expedition (List ServerRecord) := do
  let targets ← addresses
  collect records (← get).settings.retryBudget targets

end Expedition

namespace Base

def new (settings : Survey.Settings) (supplies : Nat → Token.Supply) (stations : List Station)
    (failing : Nat) (sockets : Option Nat) : Except Failure Base := do
  let masters ← resolveMasters settings.masters
  return ⟨settings, masters, ⟨0, stations, failing, none⟩, 0, sockets, supplies⟩

def advance (b : Base) (span : Time) : Base := { b with world := b.world.advance span }

def cancel (b : Base) (span : Time) : Base := { b with world := b.world.cancel span }

end Base
end ServerDiscovery.Simulation
