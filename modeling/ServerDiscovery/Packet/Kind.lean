import ServerDiscovery.Bytes

/-! What may be asked of a remote, what it may answer, and the marker that names each. -/

namespace ServerDiscovery

inductive Question where
  | list
  | count
  | info
  deriving DecidableEq, Repr

inductive ReplyKind where
  | token
  | list
  | count
  | info
  deriving DecidableEq, Repr

/-- Four bytes of ones, then the letters of the message. -/
def marker (letters : Bytes) : Bytes :=
  [0xff, 0xff, 0xff, 0xff] ++ letters

namespace Question

/-- In the order in which a datagram is compared with them. -/
def all : List Question := [.list, .count, .info]

def marker : Question → Bytes
  | .list => ServerDiscovery.marker [0x72, 0x65, 0x71, 0x32]
  | .count => ServerDiscovery.marker [0x63, 0x6f, 0x75, 0x32]
  | .info => ServerDiscovery.marker [0x67, 0x69, 0x65, 0x33, 0x00]

def reply : Question → ReplyKind
  | .list => .list
  | .count => .count
  | .info => .info

def ofBody? (body : Bytes) : Option Question :=
  all.find? fun q => q.marker.isPrefixOf body

end Question

namespace ReplyKind

/-- The kinds told apart by their marker; a token reply is told by its length. -/
def marked : List ReplyKind := [.list, .count, .info]

def marker : ReplyKind → Bytes
  | .token => []
  | .list => ServerDiscovery.marker [0x6c, 0x69, 0x73, 0x32]
  | .count => ServerDiscovery.marker [0x73, 0x69, 0x7a, 0x32]
  | .info => ServerDiscovery.marker [0x69, 0x6e, 0x66, 0x33, 0x00]

def name : ReplyKind → String
  | .token => "token"
  | .list => "server list"
  | .count => "server count"
  | .info => "server info"

end ReplyKind
end ServerDiscovery
