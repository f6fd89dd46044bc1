import ServerDiscovery.Address.Endpoint
import ServerDiscovery.Token.Basic

/-! The tokens that a client holds, one for each endpoint, and an agenda of their expiries. An
entry of the agenda may be stale: its token was replaced or removed meanwhile. Every access to the
store first sweeps out what has expired. -/

namespace ServerDiscovery.Token

structure Store where
  tokens : List (Endpoint × Token)
  /-- In the order of expiry; of two that expire together the lower endpoint is first. -/
  agenda : List (Time × Endpoint)

namespace Store

def empty : Store := ⟨[], []⟩

def size (s : Store) : Nat := s.tokens.length

def isEmpty (s : Store) : Bool := s.tokens.isEmpty

/-- The token of an endpoint, expired or not. -/
def token? (s : Store) (e : Endpoint) : Option Token := s.tokens.lookup e

def removeKey (tokens : List (Endpoint × Token)) (e : Endpoint) : List (Endpoint × Token) :=
  tokens.filter fun entry => entry.1 ≠ e

/-- Takes out the token of an endpoint; its entries of the agenda stay. -/
def erase (s : Store) (e : Endpoint) : Option Token × Store :=
  (s.token? e, { s with tokens := removeKey s.tokens e })

def before (a b : Time × Endpoint) : Bool :=
  a.1 < b.1 || (a.1 = b.1 && a.2.rank ≤ b.2.rank)

/-- Puts an entry behind those that are due no later. -/
def enlist (entry : Time × Endpoint) : List (Time × Endpoint) → List (Time × Endpoint)
  | [] => [entry]
  | x :: xs => if before x entry then x :: enlist entry xs else entry :: x :: xs

/-- Works off the agenda up to now; the tokens left, the agenda left, and how many tokens went. -/
def sweepAgenda (now : Time) (tokens : List (Endpoint × Token)) :
    List (Time × Endpoint) → List (Endpoint × Token) × List (Time × Endpoint) × Nat
  | [] => (tokens, [], 0)
  | (due, e) :: agenda =>
    if now < due then (tokens, (due, e) :: agenda, 0)
    else if ((tokens.lookup e).bind expires?).any (· ≤ now) then
      let (tokens, agenda, dropped) := sweepAgenda now (removeKey tokens e) agenda
      (tokens, agenda, dropped + 1)
    else sweepAgenda now tokens agenda

def sweep (s : Store) (now : Time) : Nat × Store :=
  let (tokens, agenda, dropped) := sweepAgenda now s.tokens s.agenda
  (dropped, ⟨tokens, agenda⟩)

def get (s : Store) (e : Endpoint) (now : Time) : Option Token × Store :=
  let s := (s.sweep now).2
  (s.token? e, s)

/-- Keeps a token that is good now, in the place of any other of the endpoint. -/
def insert (s : Store) (e : Endpoint) (t : Token) (now : Time) : Store :=
  let s := (s.sweep now).2
  match t.expires? with
  | none => s
  | some expires =>
    if expires ≤ now then s
    else ⟨(e, t) :: removeKey s.tokens e, enlist (expires, e) s.agenda⟩

end Store
end ServerDiscovery.Token
