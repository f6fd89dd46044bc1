import ServerDiscovery.Packet.Kind

/-! Why bytes are refused. -/

namespace ServerDiscovery.Wire

inductive Defect where
  | unterminatedText
  | negativePlayerCount
  | longServerCount
  deriving DecidableEq, Repr

inductive Fault where
  | truncated
  /-- The fifth byte of an integer announces a sixth. -/
  | oversizedInteger
  | malformed (defect : Defect)
  /-- A datagram of this many bytes carries no known header. -/
  | badHeader (size : Nat)
  | otherReply (expected found : ReplyKind)
  | tokenExpired
  deriving DecidableEq, Repr

def Defect.message : Defect → String
  | .unterminatedText => "string terminator missing"
  | .negativePlayerCount => "negative client count"
  | .longServerCount => "server count longer than 4 bytes"

def Fault.message : Fault → String
  | .truncated => "unexpected end of data"
  | .oversizedInteger => "varint does not fit into 32 bits"
  | .malformed defect => "malformed record: " ++ defect.message
  | .badHeader size => "invalid header in datagram of " ++ Nat.repr size ++ " bytes"
  | .otherReply expected found =>
    "expected " ++ expected.name ++ " response, received " ++ found.name
  | .tokenExpired => "token expired"

end ServerDiscovery.Wire
