import ServerDiscovery.Client.Inquiry
import ServerDiscovery.Packet.Frame
import ServerDiscovery.Packet.Payload
import ServerDiscovery.Record.Codec
import ServerDiscovery.Token.Store
import ServerDiscovery.Token.Supply

/-! A client with one socket, one target at a time, and one token for each target it has met. -/

namespace ServerDiscovery.Client

structure Session where
  settings : Settings
  supply : Token.Supply
  /-- How many numbers have been drawn from the supply. -/
  drawn : Nat
  target : Option SocketAddress
  tokens : Token.Store

namespace Session

def new (settings : Settings) (supply : Token.Supply) : Session :=
  ⟨settings, supply, 0, none, .empty⟩

def aim (s : Session) (target : SocketAddress) : Session := { s with target := some target }

/-- Aims at an address that is written as text; names are not looked up. -/
def resolve (s : Session) (text : String) : Except Failure Session :=
  match SocketAddress.ofString? text with
  | some target => .ok (s.aim target)
  | none => .error (.unresolved text)

end Session

/-- An operation of a session. What it does to the session stays when it fails. -/
abbrev Query (α : Type) := ExceptT Failure (StateT Session Dialogue) α

namespace Query

def dialogue (q : Query α) (s : Session) : Dialogue (Except Failure α × Session) :=
  q.run.run s

def ofDialogue (d : Dialogue (Except Failure α)) : Query α :=
  ExceptT.mk (liftM d)

def clock : Query Time := ofDialogue (.clock fun now => .finish (.ok now))

def target : Query SocketAddress := do
  match (← get).target with
  | some target => return target
  | none => throw .noTarget

def inquire (patience : Nat) (target : SocketAddress) (request : Bytes) (accept : Accept α) :
    Query α := do
  ofDialogue (Client.inquire (← get).settings.pacing target request accept patience)

/-- The token that the session holds for an endpoint and that is good now. -/
def heldToken (e : Endpoint) : Query (Option Token) := do
  let now ← clock
  modifyGet fun s =>
    let (t, tokens) := s.tokens.get e now
    (t, { s with tokens })

def drawToken : Query Token :=
  modifyGet fun s => (.requested (s.supply s.drawn), { s with drawn := s.drawn + 1 })

def wire : Except Wire.Fault α → Except Failure α
  | .ok a => .ok a
  | .error fault => .error (.wire fault)

/-- The token that a response grants, if it answers the request of this client. -/
def acceptToken (lifetime : Time) (requested : Token) : Accept Token := fun now datagram _ => do
  let frame ← wire (Packet.expectResponse datagram .token)
  let t ← wire (Token.ofResponse frame lifetime now)
  if t.client ≠ requested.client then throw (.tokenMismatch requested.client t.client)
  return t

def acceptCount : Accept Nat := fun _ datagram _ => do
  let payload ← wire (Packet.expectResponse datagram .count)
  wire (Packet.parseCount payload)

/-- A record carries the address that it came from. -/
def acceptRecord : Accept ServerRecord := fun _ datagram source => do
  let payload ← wire (Packet.expectResponse datagram .info)
  wire (ServerRecord.parse payload (Endpoint.ofSocket source).toString)

def acceptList : Accept (List Endpoint) := fun _ datagram _ => do
  let payload ← wire (Packet.expectResponse datagram .list)
  return Packet.parseList payload

/-- The token for the target, by a handshake if none is held. -/
def token (patience : Nat) : Query Token := do
  let target ← target
  let key := Endpoint.ofSocket target
  match ← heldToken key with
  | some t => return t
  | none =>
    let requested ← drawToken
    let accept := acceptToken (← get).settings.tokenLifetime requested
    let t ← inquire patience target requested.requestFrame accept
    let now ← clock
    modify fun s => { s with tokens := s.tokens.insert key t now }
    return t

def requestFrame (patience : Nat) (q : Question) : Query Bytes := do
  let t ← token patience
  let now ← clock
  MonadExcept.ofExcept (wire (Packet.request t q now))

def count (patience : Nat) : Query Nat := do
  let target ← target
  let frame ← requestFrame patience .count
  inquire patience target frame acceptCount

def record (patience : Nat) : Query ServerRecord := do
  let target ← target
  let frame ← requestFrame patience .info
  inquire patience target frame acceptRecord

def recordOf (patience : Nat) (e : Endpoint) : Query ServerRecord := do
  modify fun s => s.aim e.toSocket
  record patience

/-- The servers of a chunk that are not known yet, each once. -/
def unseen (known chunk : List Endpoint) : List Endpoint :=
  (chunk.filter fun e => e ∉ known).eraseDups

/-- Takes in chunks from a source until as many as expected have brought something new, nothing
comes in time, or receiving fails. -/
def gather (source : Endpoint) (expected patience chunks : Nat) (servers : List Endpoint) :
    Dialogue (Except Failure (List Endpoint)) :=
  if expected ≤ chunks then .finish (.ok servers)
  else match patience with
    | 0 => .stall
    | patience + 1 => .receive fun
      | .datagram datagram sender =>
        if Endpoint.ofSocket sender = source then
          match Packet.expectResponse datagram .list with
          | .ok payload =>
            let fresh := unseen servers (Packet.parseList payload)
            let chunks := if fresh.isEmpty then chunks else chunks + 1
            gather source expected patience chunks (servers ++ fresh)
          | .error _ => gather source expected patience chunks servers
        else gather source expected patience chunks servers
      | .timedOut | .failed => .finish (.ok servers)
      | .cancelled => .finish (.error .cancelled)

def expectedChunks (count : Nat) : Nat := (count + Packet.chunkSize - 1) / Packet.chunkSize

/-- The servers that a master knows, each once, in the order in which they come. -/
def servers (patience : Nat) : Query (List Endpoint) := do
  let target ← target
  let count ← count patience
  if count = 0 then return []
  let frame ← requestFrame patience .list
  let started ← clock
  let first ← inquire patience target frame acceptList
  let deadline := started + (← get).settings.pacing.budget
  ofDialogue <| .readUntil deadline <|
    gather (Endpoint.ofSocket target) (expectedChunks count) patience 1 (unseen [] first)

end Query
end ServerDiscovery.Client
