import ServerDiscovery.Record.Basic
import ServerDiscovery.Json.Printer
import ServerDiscovery.Json.Shape

/-! Records as JSON. The host name is left out when it is empty, and only it may be. -/

namespace ServerDiscovery

open Json

namespace PlayerRecord

/-- A value of a player's record. -/
inductive Value where
  | text (s : String)
  | int (v : Int32)

def slots : List (Slot Value) :=
  [⟨"name", .text <$> text, none⟩, ⟨"clan", .text <$> text, none⟩,
    ⟨"country", .int <$> int32, none⟩, ⟨"score", .int <$> int32, none⟩,
    ⟨"type", .int <$> int32, none⟩]

def readJson : Reader PlayerRecord := do
  match ← record slots with
  | [.text name, .text clan, .int country, .int score, .int kind] =>
    return { name, clan, country, score, kind }
  | _ => throw .mismatch

def ofJson (s : String) : Except Fault PlayerRecord :=
  document readJson s

def writeJson (p : PlayerRecord) : List Char :=
  writeObject [("name", writeText p.name), ("clan", writeText p.clan),
    ("country", writeInt p.country.toInt), ("score", writeInt p.score.toInt),
    ("type", writeInt p.kind.toInt)]

def toJson (p : PlayerRecord) : String := String.ofList p.writeJson

end PlayerRecord

namespace ServerRecord

/-- A value of a server's record. -/
inductive Value where
  | text (s : String)
  | byte (b : UInt8)
  | int (v : Int32)
  | players (ps : List PlayerRecord)

def slots : List (Slot Value) :=
  [⟨"address", .text <$> text, none⟩, ⟨"version", .text <$> text, none⟩,
    ⟨"name", .text <$> text, none⟩, ⟨"hostname", .text <$> text, some (.text "")⟩,
    ⟨"map", .text <$> text, none⟩, ⟨"gametype", .text <$> text, none⟩,
    ⟨"server_flags", .byte <$> uint8, none⟩, ⟨"skill_level", .byte <$> uint8, none⟩,
    ⟨"num_players", .int <$> int32, none⟩, ⟨"max_players", .int <$> int32, none⟩,
    ⟨"num_clients", .int <$> int32, none⟩, ⟨"max_clients", .int <$> int32, none⟩,
    ⟨"players", .players <$> list PlayerRecord.readJson, none⟩]

def readJson : Reader ServerRecord := do
  match ← record slots with
  | [.text address, .text version, .text name, .text hostname, .text map, .text gameType,
      .byte flags, .byte skillLevel, .int numPlayers, .int maxPlayers, .int numClients,
      .int maxClients, .players players] =>
    return { address, version, name, hostname, map, gameType, flags, skillLevel, numPlayers,
             maxPlayers, numClients, maxClients, players }
  | _ => throw .mismatch

def ofJson (s : String) : Except Fault ServerRecord :=
  document readJson s

def writeJson (r : ServerRecord) : List Char :=
  writeObject <|
    [("address", writeText r.address), ("version", writeText r.version), ("name", writeText r.name)]
    ++ (if r.hostname.isEmpty then [] else [("hostname", writeText r.hostname)])
    ++ [("map", writeText r.map), ("gametype", writeText r.gameType),
      ("server_flags", writeInt r.flags.toNat), ("skill_level", writeInt r.skillLevel.toNat),
      ("num_players", writeInt r.numPlayers.toInt), ("max_players", writeInt r.maxPlayers.toInt),
      ("num_clients", writeInt r.numClients.toInt), ("max_clients", writeInt r.maxClients.toInt),
      ("players", writeList (r.players.map PlayerRecord.writeJson))]

def toJson (r : ServerRecord) : String := String.ofList r.writeJson

end ServerRecord
end ServerDiscovery
