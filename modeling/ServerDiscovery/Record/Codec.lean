import ServerDiscovery.Record.Basic
import ServerDiscovery.Wire.Reader

/-! Records as bytes: texts, two bytes, integers, then as many players as the client count says.
Reading blanks the control characters of the names that a game shows. -/

namespace ServerDiscovery

open Wire

namespace PlayerRecord

def fields (p : PlayerRecord) : List Field :=
  [.text p.name, .text p.clan, .int p.country, .int p.score, .int p.kind]

def read : Reader PlayerRecord := do
  let name ← Reader.blankedText []
  let clan ← Reader.blankedText []
  let country ← Reader.int
  let score ← Reader.int
  let kind ← Reader.int
  return { name, clan, country, score, kind }

end PlayerRecord

namespace ServerRecord

def headFields (r : ServerRecord) : List Field :=
  [.text r.version, .text r.name, .text r.hostname, .text r.map, .text r.gameType,
    .byte r.flags, .byte r.skillLevel,
    .int r.numPlayers, .int r.maxPlayers, .int r.statedClients, .int r.maxClients]

def fields (r : ServerRecord) : List Field :=
  r.headFields ++ r.players.flatMap PlayerRecord.fields

def encode (r : ServerRecord) : Bytes :=
  encodeFields r.fields

def readPlayers : Nat → Reader (List PlayerRecord)
  | 0 => pure []
  | n + 1 => do
    let p ← PlayerRecord.read
    let ps ← readPlayers n
    return p :: ps

def readHead (address : String) : Reader ServerRecord := do
  let version ← Reader.text
  let name ← Reader.blankedText []
  let hostname ← Reader.text
  let map ← Reader.text
  let gameType ← Reader.text
  let flags ← Reader.byte
  let skillLevel ← Reader.byte
  let numPlayers ← Reader.int
  let maxPlayers ← Reader.int
  let numClients ← Reader.int
  let maxClients ← Reader.int
  return { address, version, name, hostname, map, gameType, flags, skillLevel, numPlayers,
           maxPlayers, numClients, maxClients, players := [] }

def read (address : String) : Reader ServerRecord := do
  let head ← readHead address
  if head.numClients < 0 then throw (.malformed .negativePlayerCount)
  let players ← readPlayers head.numClients.toInt.toNat
  return { head with players }

/-- The record at the front of the bytes; what follows it is ignored. -/
def parse (bs : Bytes) (address : String) : Except Fault ServerRecord :=
  Prod.fst <$> read address bs

end ServerRecord
end ServerDiscovery
