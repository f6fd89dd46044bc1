import ServerDiscovery.Client.Pacing

/-! What a survey of all servers is set up with. -/

namespace ServerDiscovery

def masterPort : UInt16 := 8283

def gamePort : UInt16 := 8303

namespace Survey

def defaultMasters : List String :=
  ["master1.teeworlds.com:8283", "master2.teeworlds.com:8283", "master3.teeworlds.com:8283",
    "master4.teeworlds.com:8283"]

structure Settings where
  masters : List String := defaultMasters
  masterTimeout : Time := 5000
  serverTimeout : Time := 16000
  /-- How often the servers that did not answer are asked again. -/
  retryBudget : Nat := 2
  /-- How many servers are asked at a time; all of them if there is no limit. -/
  maxWorkers : Option Nat := none
  client : Client.Settings := {}

namespace Settings

def masterClient (s : Settings) : Client.Settings := s.client.withTimeout s.masterTimeout

def serverClient (s : Settings) : Client.Settings := s.client.withTimeout s.serverTimeout

/-- The workers for so many addresses, at least one whatever the limit. -/
def workers (s : Settings) (addresses : Nat) : Nat :=
  match s.maxWorkers with
  | some cap => min addresses (max cap 1)
  | none => addresses

end Settings
end Survey
end ServerDiscovery
