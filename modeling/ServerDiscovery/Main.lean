import ServerDiscovery.Address.Json
import ServerDiscovery.Command
import ServerDiscovery.Network.Hosting
import ServerDiscovery.Network.Workers
import ServerDiscovery.Record.Json
import ServerDiscovery.Survey.Passes

/-! The command line: it asks masters and servers over the network and prints what they tell as
JSON, or runs hosts to be asked. -/

namespace ServerDiscovery.Main

open Client Network Survey

def printList (items : List (List Char)) : IO Unit :=
  IO.println (String.ofList (Json.writeList items))

def writeCount (c : SocketAddress × Nat) : List Char :=
  Json.writeList [Json.writeText c.1.toString, Json.writeInt c.2]

def inform (settings : Survey.Settings) (target : String) : ExceptT Failure IO ServerRecord := do
  let client := settings.serverClient
  let session ← MonadExcept.ofExcept ((← newSession client).resolve target)
  let line ← Line.forBind client.bind
  let (result, _) ← line.perform (Query.record patience) session
  MonadExcept.ofExcept result

def serve (o : Command.Options) : ExceptT Failure IO Unit := do
  let place (port : Nat) : ExceptT Failure IO SocketAddress :=
    let text := o.host ++ ":" ++ Nat.repr port
    match SocketAddress.ofString? text with
    | some a => return a
    | none => throw (.unresolved text)
  let places ← (List.range o.servers).mapM fun n => place (o.gamePort + n)
  let games ← places.zipIdx.mapM fun (a, n) => host a (.game (sampleRecord n))
  let master ← host (← place o.masterPort) (.master (places.map Endpoint.ofSocket))
  for thread in master :: games do
    MonadExcept.ofExcept ((← IO.wait thread).mapError fun e => .socket e.toString)

def run (c : Command) : ExceptT Failure IO Unit := do
  let settings := c.options.settings
  match c.task with
  | .count => printList ((← askMasters settings (Query.count patience)).map writeCount)
  | .list =>
    printList ((Endpoint.sort (← addresses settings)).map fun e => Json.writeText e.toString)
  | .info target => IO.println (← inform settings target).toJson
  | .all =>
    let rs ← collect (records settings) settings.retryBudget (← addresses settings)
    printList ((rs.mergeSort fun a b => a.address ≤ b.address).map ServerRecord.writeJson)
  | .serve => serve c.options

end ServerDiscovery.Main

open ServerDiscovery in
def main (args : List String) : IO UInt32 := do
  match Command.parse args with
  | .error message =>
    IO.eprintln message
    return 2
  | .ok command =>
    match ← (Main.run command).run with
    | .ok () => return 0
    | .error failure =>
      IO.eprintln failure.message
      return 1
