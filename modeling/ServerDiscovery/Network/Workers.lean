import ServerDiscovery.Client.Session
import ServerDiscovery.Network.Udp
import ServerDiscovery.Survey.Crew
import ServerDiscovery.Survey.Settings

/-! Workers on sockets of the machine, each a thread of its own, that share one queue. -/

namespace ServerDiscovery.Network

open Client Survey

/-- More datagrams than one wait can take in. -/
def patience : Nat := 1000000000

def Line.perform (l : Line) (q : Query α) (s : Session) : IO (Except Failure α × Session) := do
  match ← l.converse (q.dialogue s) 0 with
  | some done => return done
  | none => return (.error .timeout, s)

/-- Takes addresses off the queue, at most so many, and puts in what the queries bring. -/
def work (crew : IO.Ref (Crew ι ρ)) (query : ι → Query ρ) (l : Line) :
    Nat → Session → IO (Except Failure Unit)
  | 0, _ => return .ok ()
  | jobs + 1, s => do
    let next ← crew.modifyGet fun c => match c.pull with
      | some (job, c) => (some job, c)
      | none => (none, c)
    match next with
    | none => return .ok ()
    | some job => do
      let (result, s) ← l.perform (query job) s
      let failure ← crew.modifyGet fun c => match c.report result with
        | .ok c => (none, c)
        | .error f => (some f, c)
      match failure with
      | none => work crew query l jobs s
      | some f => return .error f

def newSession (settings : Client.Settings) : IO Session := do
  return .new settings (Token.scattered (← randomSeed))

def employ (settings : Client.Settings) (query : ι → Query ρ) (queue : List ι) (workers : Nat) :
    ExceptT Failure IO (List ρ) := do
  let crew ← IO.mkRef (Crew.start queue)
  let worker : IO Unit := do
    let ending ← try
        let line ← Line.forBind settings.bind
        work crew query line queue.length (← newSession settings)
      catch e => pure (.error (.socket e.toString))
    crew.modify fun c => c.close ending
  let threads ← (List.range workers).mapM fun _ => worker.asTask Task.Priority.dedicated
  for thread in threads do
    discard (IO.wait thread)
  MonadExcept.ofExcept (← crew.get).result

def askMasters (settings : Survey.Settings) (query : Query ρ) :
    ExceptT Failure IO (List (SocketAddress × ρ)) := do
  let masters ← MonadExcept.ofExcept (resolveMasters settings.masters)
  let ask (master : SocketAddress) : Query (SocketAddress × ρ) := do
    modify fun s => s.aim master
    let r ← query
    return (master, r)
  employ settings.masterClient ask masters masters.length

def addresses (settings : Survey.Settings) : ExceptT Failure IO (List Endpoint) :=
  (fun lists => merge (lists.map Prod.snd)) <$> askMasters settings (Query.servers patience)

def records (settings : Survey.Settings) (targets : List Endpoint) :
    ExceptT Failure IO (List ServerRecord) :=
  employ settings.serverClient (Query.recordOf patience) targets (settings.workers targets.length)

end ServerDiscovery.Network
