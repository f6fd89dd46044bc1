import ServerDiscovery.Packet.Frame
import ServerDiscovery.Packet.Payload
import ServerDiscovery.Record.Codec

/-! A remote of a simulated network. It keeps one server token, answers as its role does, and can
be made to answer in any other way, datagram by datagram. -/

namespace ServerDiscovery.Simulation

inductive Traffic where
  | token
  | asked (q : Question)
  | badToken
  | unknown
  deriving DecidableEq, Repr

inductive Reply.Content where
  | usual
  | answer (kind : ReplyKind) (payload : Bytes)
  | raw (bytes : Bytes)

structure Reply where
  content : Reply.Content
  delay : Time := 0
  /-- The source, if it is not the station's address. -/
  source : Option SocketAddress := none
  /-- Added to the client token that is sent back. -/
  echo : Int32 := 0
  /-- The server token, if it is not the station's. -/
  server : Option Int32 := none
  /-- The one answer to send of several. -/
  only : Option Nat := none

def Reply.usual : Reply := { content := .usual }

structure Tally where
  counts : List (Traffic × Nat)

namespace Tally

def empty : Tally := ⟨[]⟩

def count (t : Tally) (traffic : Traffic) : Nat := (t.counts.lookup traffic).getD 0

def note (t : Tally) (traffic : Traffic) : Tally :=
  ⟨(traffic, t.count traffic + 1) :: t.counts.filter fun entry => entry.1 ≠ traffic⟩

end Tally

structure Station where
  address : SocketAddress
  server : Int32
  servers : Option (List Endpoint)
  /-- The count that it states in the place of the number of its servers. -/
  size : Option UInt16
  record : Option ServerRecord
  /-- Replies to the first, second, … datagram of a kind; the last ones hold from then on. -/
  plans : List (Traffic × List (List Reply))
  heard : Tally
  clients : List Int32

structure Delivery where
  due : Time
  source : SocketAddress
  payload : Bytes

namespace Station

def endpoint (s : Station) : Endpoint := .ofSocket s.address

def traffic (s : Station) (datagram : Bytes) : Traffic :=
  if Token.isRequest datagram then .token
  else match Packet.requestTokens datagram with
    | .error _ => .unknown
    | .ok (server, _) =>
      if server ≠ s.server then .badToken
      else match Question.ofBody? (datagram.drop Token.headerSize) with
        | some q => .asked q
        | none => .unknown

/-- The client token of a datagram of either kind; zero if it carries none. -/
def clientOf (datagram : Bytes) : Int32 :=
  match Token.requestedClient datagram, Packet.requestTokens datagram with
  | .ok client, _ => client
  | .error _, .ok (_, client) => client
  | .error _, .error _ => 0

/-- Whether a follow-up carries a client token that no token request to the station carried. -/
def isStranger (s : Station) (datagram : Bytes) : Bool :=
  match Token.requestedClient datagram, Packet.requestTokens datagram with
  | .error _, .ok (_, client) => client ∉ s.clients
  | _, _ => false

def usualAnswers (s : Station) (traffic : Traffic) (client server : Int32) : List Bytes :=
  match traffic, s.servers, s.record with
  | .token, _, _ => [Token.responseFrame client server]
  | .asked .count, some servers, _ =>
    let count := s.size.getD (Packet.statedCount servers.length)
    [Packet.response client server .count (Packet.countPayload count)]
  | .asked .list, some servers, _ =>
    (Packet.listPayloads servers).map (Packet.response client server .list)
  | .asked .info, _, some record => [Packet.response client server .info record.encode]
  | _, _, _ => []

def answers (s : Station) (traffic : Traffic) (datagram : Bytes) (reply : Reply) : List Bytes :=
  let client := clientOf datagram + reply.echo
  let server := reply.server.getD s.server
  let all := match reply.content with
    | .usual => s.usualAnswers traffic client server
    | .answer kind payload => [Packet.response client server kind payload]
    | .raw bytes => [bytes]
  match reply.only with
  | some i => all[i]?.toList
  | none => all

def planned (s : Station) (traffic : Traffic) : List Reply :=
  match s.plans.lookup traffic with
  | none => [.usual]
  | some actions => (actions[s.heard.count traffic]?.or actions.getLast?).getD []

def hear (s : Station) (now : Time) (datagram : Bytes) : List Delivery × Station :=
  let traffic := s.traffic datagram
  let deliveries := (s.planned traffic).flatMap fun reply =>
    (s.answers traffic datagram reply).map fun payload =>
      ⟨now + reply.delay, reply.source.getD s.address, payload⟩
  let clients := match Token.requestedClient datagram with
    | .ok client => s.clients.insert client
    | .error _ => s.clients
  (deliveries, { s with heard := s.heard.note traffic, clients })

end Station
end ServerDiscovery.Simulation
