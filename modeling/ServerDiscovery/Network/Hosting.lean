import ServerDiscovery.Host
import ServerDiscovery.Network.Udp

/-! Hosts on sockets of the machine. -/

namespace ServerDiscovery.Network

def sampleRecord (number : Nat) : ServerRecord :=
  let players := (List.range (number % 8)).map fun i =>
    ({ name := "player" ++ Nat.repr (i + 1), clan := "", country := -1, score := Int32.ofNat i,
       kind := 0 } : PlayerRecord)
  { address := "", version := "0.7.5", name := "Local Server #" ++ Nat.repr (number + 1),
    hostname := "", map := "ctf1", gameType := "CTF", flags := 0, skillLevel := 0,
    numPlayers := Int32.ofNat players.length, maxPlayers := 16,
    numClients := Int32.ofNat players.length, maxClients := 16, players }

def Line.serve (l : Line) (host : Host) : IO Unit := do
  let mut host := host
  let mut due ← IO.monoMsNow
  repeat
    let arrived ← l.receive due
    let now ← IO.monoMsNow
    if let .datagram payload source := arrived then
      let (replies, after) := host.answer now payload source
      host := after
      for reply in replies do
        l.sendCopies source reply 1
    if due ≤ now then
      host := host.purge now
      due := now + max 1 host.settings.tokenLifetime

def host (address : SocketAddress) (role : Host.Role) : IO (Task (Except IO.Error Unit)) := do
  let line ← Line.bound address
  let supply := Token.scattered (← randomSeed)
  (line.serve (.new role {} supply)).asTask Task.Priority.dedicated

end ServerDiscovery.Network
