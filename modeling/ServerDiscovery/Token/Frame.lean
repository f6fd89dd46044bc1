import ServerDiscovery.Token.Basic
import ServerDiscovery.Wire.Fault

/-! The two control datagrams of the handshake, and the header that carries a token afterwards. -/

namespace ServerDiscovery.Token

/-- First byte of a control datagram: the control flag above two bits of padding. -/
def controlByte : UInt8 := 0x04

/-- First byte of a follow-up: the connectionless flag above the version. -/
def followUpByte : UInt8 := 0x21

def messageByte : UInt8 := 5

/-- A request is padded, so that the answer is never the longer one. -/
def paddingSize : Nat := 512

def requestSize : Nat := 7 + paddingSize

def responseSize : Nat := 12

def headerSize : Nat := 9

def requestFrame (t : Token) : Bytes :=
  [controlByte, 0, 0] ++ Bytes.ofInt32 unknownServer ++ [messageByte] ++ Bytes.ofInt32 t.client
    ++ List.replicate (requestSize - responseSize) 0

def responseFrame (client server : Int32) : Bytes :=
  [controlByte, 0, 0] ++ Bytes.ofInt32 client ++ [messageByte] ++ Bytes.ofInt32 server

/-- The header of a follow-up: the receiver's number first, then the sender's. -/
def followUpHeader (receiver sender : Int32) : Bytes :=
  followUpByte :: (Bytes.ofInt32 receiver ++ Bytes.ofInt32 sender)

/-- The header of a follow-up to the remote; only a token valid now has one. -/
def header (t : Token) (now : Time) : Except Wire.Fault Bytes :=
  if t.isValid now then .ok (followUpHeader t.server t.client) else .error .tokenExpired

def isRequest (frame : Bytes) : Bool :=
  responseSize ≤ frame.length && frame[0]? = some controlByte && frame[7]? = some messageByte

def requestedClient (frame : Bytes) : Except Wire.Fault Int32 :=
  match Bytes.int32At? 8 frame with
  | some client => if isRequest frame then .ok client else .error (.badHeader frame.length)
  | none => .error (.badHeader frame.length)

/-- The token that a response grants to a client reading it now. -/
def ofResponse (frame : Bytes) (lifetime now : Time) : Except Wire.Fault Token :=
  match Bytes.int32At? 3 frame, Bytes.int32At? 8 frame with
  | some client, some server => .ok (issued client server (now + (lifetime - expiryMargin)))
  | _, _ => .error (.badHeader frame.length)

end ServerDiscovery.Token
