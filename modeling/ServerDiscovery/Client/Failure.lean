import ServerDiscovery.Wire.Fault

/-! Why a client does not get what it asked for. -/

namespace ServerDiscovery.Client

inductive Failure where
  /-- No acceptable reply came within the time budget. -/
  | timeout
  | cancelled
  | wire (fault : Wire.Fault)
  | noTarget
  | unresolved (text : String)
  /-- A token response echoes another client's number. -/
  | tokenMismatch (sent received : Int32)
  | noMasters
  | socket (text : String)
  deriving DecidableEq, Repr

namespace Failure

def message : Failure → String
  | timeout => "no valid response within the time budget"
  | cancelled => "operation cancelled"
  | wire fault => "wire format error: " ++ fault.message
  | noTarget => "no target address set"
  | unresolved text => "could not resolve " ++ text
  | tokenMismatch sent received =>
    "client token mismatch: sent " ++ Int.repr sent.toInt ++ ", received "
      ++ Int.repr received.toInt
  | noMasters => "none of the master servers could be resolved"
  | socket text => "socket error: " ++ text

/-- Whether the remote is to blame, and not this host or its user. -/
def isRemote : Failure → Bool
  | timeout | wire _ | tokenMismatch _ _ | unresolved _ => true
  | cancelled | noTarget | noMasters | socket _ => false

end Failure
end ServerDiscovery.Client
