import ServerDiscovery.Address.Endpoint
import ServerDiscovery.Json.Printer
import ServerDiscovery.Json.Reader

/-! An endpoint in JSON is its text. -/

namespace ServerDiscovery.Endpoint

def readJson : Json.Reader Endpoint := do
  match ofString? (← Json.text) with
  | some e => return e
  | none => throw .mismatch

def ofJson (s : String) : Except Json.Fault Endpoint :=
  Json.document readJson s

def toJson (e : Endpoint) : String :=
  String.ofList (Json.writeText e.toString)

end ServerDiscovery.Endpoint
