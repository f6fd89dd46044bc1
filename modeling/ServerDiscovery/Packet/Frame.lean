import ServerDiscovery.Token.Frame

/-! Datagrams after the handshake: a header of nine bytes, a marker, a payload. A token response
has no marker and is told by its length alone. -/

namespace ServerDiscovery.Packet

/-- The largest datagram that either side sends or takes. -/
def maxSize : Nat := 1500

def request (t : Token) (q : Question) (now : Time) : Except Wire.Fault Bytes := do
  let header ← t.header now
  return header ++ q.marker

/-- The two numbers in the header of a follow-up to a remote: the remote's, then the client's. -/
def requestTokens (datagram : Bytes) : Except Wire.Fault (Int32 × Int32) :=
  match datagram.head?, Bytes.int32At? 1 datagram, Bytes.int32At? 5 datagram with
  | some first, some server, some client =>
    if first = Token.followUpByte then .ok (server, client) else .error (.badHeader datagram.length)
  | _, _, _ => .error (.badHeader datagram.length)

def response (client server : Int32) (kind : ReplyKind) (payload : Bytes) : Bytes :=
  Token.followUpHeader client server ++ kind.marker ++ payload

/-- The kind of an answer, and its payload; a token response is its own payload. -/
def matchResponse (datagram : Bytes) : Except Wire.Fault (ReplyKind × Bytes) :=
  if datagram.length = Token.responseSize then .ok (.token, datagram)
  else if datagram.length < Token.headerSize then .error (.badHeader datagram.length)
  else
    let body := datagram.drop Token.headerSize
    match ReplyKind.marked.find? fun kind => kind.marker.isPrefixOf body with
    | some kind => .ok (kind, body.drop kind.marker.length)
    | none => .error (.badHeader datagram.length)

def expectResponse (datagram : Bytes) (expected : ReplyKind) : Except Wire.Fault Bytes := do
  let (found, payload) ← matchResponse datagram
  if found = expected then return payload else throw (.otherReply expected found)

end ServerDiscovery.Packet
