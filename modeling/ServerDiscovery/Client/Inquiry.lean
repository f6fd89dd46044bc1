import ServerDiscovery.Address.Endpoint
import ServerDiscovery.Client.Dialogue
import ServerDiscovery.Client.Failure
import ServerDiscovery.Client.Pacing

/-! One request, sent until an acceptable reply comes or the budget is spent. Every failed attempt
doubles both the window in which the next one waits and the number of copies that it sends. A
datagram from elsewhere does not end an attempt; a reply that is not acceptable does. -/

namespace ServerDiscovery.Client

structure Inquiry where
  target : SocketAddress
  request : Bytes
  pacing : Pacing
  started : Time
  window : Time
  /-- How many copies the next attempt sends. -/
  burst : Nat

/-- Judges a reply, which is read at an instant and comes from a source. -/
abbrev Accept (α : Type) := Time → Bytes → SocketAddress → Except Failure α

inductive Inquiry.Verdict (α : Type) where
  | ignore
  | reject
  | settle (result : Except Failure α)

namespace Inquiry

/-- The most copies that an attempt sends. -/
def maxBurst : Nat := 18446744073709551615

def start (target : SocketAddress) (request : Bytes) (pacing : Pacing) (now : Time) : Inquiry :=
  ⟨target, request, pacing, now, pacing.firstWindow, 1⟩

def left (x : Inquiry) (now : Time) : Time :=
  x.pacing.budget - (now - x.started)

def backOff (x : Inquiry) (now : Time) : Inquiry :=
  { x with window := min (2 * x.window) (x.left now), burst := min (2 * x.burst) maxBurst }

/-- Whether a datagram comes from the target, whatever form its address has. -/
def isFromTarget (x : Inquiry) (source : SocketAddress) : Bool :=
  Endpoint.ofSocket source = Endpoint.ofSocket x.target

def judge (x : Inquiry) (accept : Accept α) (now : Time) : Reception → Verdict α
  | .datagram payload source =>
    if x.isFromTarget source then
      match accept now payload source with
      | .ok a => .settle (.ok a)
      | .error _ => .reject
    else .ignore
  | .timedOut | .failed => .reject
  | .cancelled => .settle (.error .cancelled)

def attempt (x : Inquiry) (wait : Dialogue (Except Failure α)) : Dialogue (Except Failure α) :=
  .clock fun now =>
    if x.left now = 0 then .finish (.error .timeout)
    else
      .readUntil (now + min x.window (x.left now)) <|
      .writeUntil (now + x.pacing.writeBudget) <|
      .send x.target x.request x.burst wait

/-- Waits for replies, and makes the next attempt when one has failed; `patience` bounds the
receptions. -/
def await (accept : Accept α) : Nat → Inquiry → Dialogue (Except Failure α)
  | 0, _ => .stall
  | patience + 1, x => .receive fun r => .clock fun now =>
    match x.judge accept now r with
    | .ignore => await accept patience x
    | .reject =>
      let x := x.backOff now
      x.attempt (await accept patience x)
    | .settle result => .finish result

end Inquiry

/-- Asks until an acceptable reply comes: its meaning, or the reason why there is none. -/
def inquire (pacing : Pacing) (target : SocketAddress) (request : Bytes) (accept : Accept α)
    (patience : Nat) : Dialogue (Except Failure α) :=
  .clock fun now =>
    let x := Inquiry.start target request pacing now
    x.attempt (Inquiry.await accept patience x)

end ServerDiscovery.Client
