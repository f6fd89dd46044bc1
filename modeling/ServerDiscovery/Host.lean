import ServerDiscovery.Packet.Frame
import ServerDiscovery.Packet.Payload
import ServerDiscovery.Record.Codec
import ServerDiscovery.Token.Ledger

/-! A host that answers the protocol, as a master or as a game server. It grants tokens to whoever
asks, and answers questions of those alone who hold a live one. -/

namespace ServerDiscovery

inductive Host.Role where
  | master (servers : List Endpoint)
  | game (record : ServerRecord)

structure Host.Settings where
  tokenLifetime : Time := 30000
  maxTokens : Nat := 4096
  /-- So many datagrams are lost before any is looked at. -/
  dropFirst : Nat := 0
  /-- Whether the n-th datagram is lost all the same. -/
  loses : Nat → Bool := fun _ => false

inductive Host.Verdict where
  | dropped
  | token
  | asked (q : Question)
  | rejected
  deriving DecidableEq, Repr

/-- Counters without a limit; those of a machine start over at 2 ^ 64. -/
structure Host.Stats where
  received : Nat := 0
  dropped : Nat := 0
  token : Nat := 0
  count : Nat := 0
  list : Nat := 0
  info : Nat := 0
  rejected : Nat := 0
  deriving DecidableEq, Repr

/-- Every datagram is received, and counted once more for what became of it. -/
def Host.Stats.note (s : Stats) (v : Verdict) : Stats :=
  let s := { s with received := s.received + 1 }
  match v with
  | .dropped => { s with dropped := s.dropped + 1 }
  | .token => { s with token := s.token + 1 }
  | .asked .count => { s with count := s.count + 1 }
  | .asked .list => { s with list := s.list + 1 }
  | .asked .info => { s with info := s.info + 1 }
  | .rejected => { s with rejected := s.rejected + 1 }

structure Host where
  role : Host.Role
  settings : Host.Settings
  ledger : Token.Ledger
  stats : Host.Stats

namespace Host

def new (role : Role) (settings : Settings) (supply : Token.Supply) : Host :=
  ⟨role, settings, .empty settings.tokenLifetime settings.maxTokens supply, {}⟩

/-- The payloads with which a role answers a question; none if it does not serve it. -/
def Role.payloads? : Role → Question → Option (List Bytes)
  | .master servers, .count => some [Packet.countPayload (Packet.statedCount servers.length)]
  | .master servers, .list => some (Packet.listPayloads servers)
  | .game record, .info => some [record.encode]
  | _, _ => none

def drops (h : Host) : Bool :=
  h.stats.received < h.settings.dropFirst || h.settings.loses h.stats.received

/-- A datagram that is not lost: what becomes of it, the replies, and the ledger afterwards. -/
def handle (h : Host) (now : Time) (datagram : Bytes) (source : SocketAddress) :
    Verdict × List Bytes × Token.Ledger :=
  match Token.requestedClient datagram with
  | .ok client =>
    match h.ledger.issue source client now with
    | (some server, ledger) => (.token, [Token.responseFrame client server], ledger)
    | (none, ledger) => (.token, [], ledger)
  | .error _ =>
    match Packet.requestTokens datagram with
    | .error _ => (.rejected, [], h.ledger)
    | .ok (server, client) =>
      match h.ledger.validate source server now with
      | (false, ledger) => (.rejected, [], ledger)
      | (true, ledger) =>
        match Question.ofBody? (datagram.drop Token.headerSize) with
        | none => (.rejected, [], ledger)
        | some q =>
          match h.role.payloads? q with
          | none => (.rejected, [], ledger)
          | some payloads =>
            (.asked q, payloads.map (Packet.response client server q.reply), ledger)

def answer (h : Host) (now : Time) (datagram : Bytes) (source : SocketAddress) :
    List Bytes × Host :=
  if h.drops then ([], { h with stats := h.stats.note .dropped })
  else
    let (verdict, replies, ledger) := h.handle now datagram source
    (replies, { h with ledger, stats := h.stats.note verdict })

def purge (h : Host) (now : Time) : Host :=
  { h with ledger := (h.ledger.purge now).2 }

end Host
end ServerDiscovery
