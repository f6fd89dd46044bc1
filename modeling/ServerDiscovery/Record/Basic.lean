import ServerDiscovery.Text.Quoted

/-! What a game server tells about itself. -/

namespace ServerDiscovery

structure PlayerRecord where
  name : String
  clan : String
  country : Int32
  score : Int32
  /-- Player, spectator or bot. -/
  kind : Int32
  deriving DecidableEq, Repr

structure ServerRecord where
  /-- Where the record came from; not part of what the server sends. -/
  address : String
  version : String
  name : String
  hostname : String
  map : String
  gameType : String
  flags : UInt8
  skillLevel : UInt8
  numPlayers : Int32
  maxPlayers : Int32
  numClients : Int32
  maxClients : Int32
  players : List PlayerRecord
  deriving DecidableEq, Repr

namespace ServerRecord

/-- The number of players as a record can state it. -/
def statedClients (r : ServerRecord) : Int32 :=
  Int32.ofNat (min r.players.length 2147483647)

def normalize (r : ServerRecord) : ServerRecord :=
  { r with numClients := r.statedClients }

def isEmpty (r : ServerRecord) : Bool :=
  r.version.isEmpty && r.name.isEmpty && r.map.isEmpty && r.gameType.isEmpty
    && r.maxClients = 0 && r.players.isEmpty

/-- One line for a reader: address, name, game type, map, players of clients. -/
def render (r : ServerRecord) : String :=
  r.address ++ " " ++ Text.quoted r.name ++ " [" ++ r.gameType ++ "] " ++ r.map ++ " "
    ++ Nat.repr r.players.length ++ "/" ++ Int.repr r.maxClients.toInt

end ServerRecord
end ServerDiscovery
