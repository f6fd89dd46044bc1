import ServerDiscovery.Address.Endpoint
import ServerDiscovery.Record.Basic

/-! Asking all servers, and those that did not answer again, pass after pass. -/

namespace ServerDiscovery.Survey

/-- The records so far, by the address that each carries. -/
abbrev Table := List (String × ServerRecord)

namespace Table

def put (t : Table) (r : ServerRecord) : Table :=
  (t.filter fun entry => entry.1 ≠ r.address) ++ [(r.address, r)]

def missing (t : Table) (addresses : List Endpoint) : List Endpoint :=
  addresses.filter fun a => (t.lookup a.toString).isNone

def records (t : Table) : List ServerRecord := t.map Prod.snd

end Table

/-- So many passes at most; none once nothing is missing. -/
def passes [Monad m] (fetch : List Endpoint → m (List ServerRecord)) (addresses : List Endpoint) :
    Nat → Table → m Table
  | 0, t => pure t
  | n + 1, t =>
    match t.missing addresses with
    | [] => pure t
    | missing => do
      let records ← fetch missing
      passes fetch addresses n (records.foldl Table.put t)

/-- The records of all servers that answered in one of the passes: a first one, and as many more
as the budget allows. -/
def collect [Monad m] (fetch : List Endpoint → m (List ServerRecord)) (retryBudget : Nat)
    (addresses : List Endpoint) : m (List ServerRecord) :=
  Table.records <$> passes fetch addresses (retryBudget + 1) []

end ServerDiscovery.Survey
