import ServerDiscovery.Address.Socket
import ServerDiscovery.Token.Supply

/-! The tokens that a host has granted, one for each source address. A token lives as long as its
holder is heard of; a dead one stays in the ledger until it is purged, and counts towards the
capacity until then. -/

namespace ServerDiscovery.Token

structure Ledger.Entry where
  server : Int32
  client : Int32
  lastSeen : Time
  deriving DecidableEq, Repr

structure Ledger where
  lifetime : Time
  capacity : Nat
  supply : Supply
  drawn : Nat
  entries : List (SocketAddress × Ledger.Entry)

namespace Ledger

def empty (lifetime : Time) (capacity : Nat) (supply : Supply) : Ledger :=
  ⟨lifetime, capacity, supply, 0, []⟩

def size (l : Ledger) : Nat := l.entries.length

def isEmpty (l : Ledger) : Bool := l.entries.isEmpty

def entry? (l : Ledger) (a : SocketAddress) : Option Entry := l.entries.lookup a

def Entry.isLive (e : Entry) (lifetime now : Time) : Bool := now - e.lastSeen ≤ lifetime

def live? (l : Ledger) (a : SocketAddress) (now : Time) : Option Entry :=
  (l.entry? a).filter fun e => e.isLive l.lifetime now

def put (l : Ledger) (a : SocketAddress) (e : Entry) : Ledger :=
  { l with entries := (a, e) :: l.entries.filter fun entry => entry.1 ≠ a }

def purge (l : Ledger) (now : Time) : Nat × Ledger :=
  let kept := l.entries.filter fun entry => entry.2.isLive l.lifetime now
  (l.entries.length - kept.length, { l with entries := kept })

def grant (l : Ledger) (a : SocketAddress) (client : Int32) (now : Time) : Int32 × Ledger :=
  let server := l.supply l.drawn
  (server, { l with drawn := l.drawn + 1 }.put a ⟨server, client, now⟩)

/-- The token of an address: the one it holds if that is live, else a fresh one if there is room
or dead entries can make room. -/
def issue (l : Ledger) (a : SocketAddress) (client : Int32) (now : Time) :
    Option Int32 × Ledger :=
  match l.live? a now with
  | some e => (some e.server, l.put a { e with client, lastSeen := now })
  | none =>
    if l.size < l.capacity then
      let (server, l) := l.grant a client now
      (some server, l)
    else
      let (dropped, l) := l.purge now
      if dropped = 0 then (none, l)
      else
        let (server, l) := l.grant a client now
        (some server, l)

/-- Whether an address holds this token; if so, it has been heard of. -/
def validate (l : Ledger) (a : SocketAddress) (server : Int32) (now : Time) : Bool × Ledger :=
  match l.live? a now with
  | some e =>
    if e.server = server then (true, l.put a { e with lastSeen := now }) else (false, l)
  | none => (false, l)

end Ledger
end ServerDiscovery.Token
