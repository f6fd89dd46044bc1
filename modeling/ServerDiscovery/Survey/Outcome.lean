import ServerDiscovery.Address.Endpoint
import ServerDiscovery.Client.Failure

/-! What the outcomes of single queries mean to a survey: a remote that fails is left out, and a
query that is cancelled fails the whole. -/

namespace ServerDiscovery.Survey

open Client

/-- The masters whose addresses are known; there must be one. -/
def resolveMasters (texts : List String) : Except Failure (List SocketAddress) :=
  match texts.filterMap SocketAddress.ofString? with
  | [] => .error .noMasters
  | masters => .ok masters

def tolerate : Except Failure α → Except Failure (Option α)
  | .ok a => .ok (some a)
  | .error .cancelled => .error .cancelled
  | .error _ => .ok none

def merge (lists : List (List Endpoint)) : List Endpoint :=
  Endpoint.distinct lists.flatten

end ServerDiscovery.Survey
