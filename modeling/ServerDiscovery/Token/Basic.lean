import ServerDiscovery.Time

/-! The pair of numbers that a client and a remote agree on before the client may ask anything. -/

namespace ServerDiscovery

inductive Token.Stage where
  | unset
  | requested
  | issued (expires : Time)
  deriving DecidableEq, Repr

inductive Token.State where
  | unset
  | requested
  | valid
  | expired
  deriving DecidableEq, Repr

structure Token where
  client : Int32
  server : Int32
  stage : Token.Stage
  deriving DecidableEq, Repr

namespace Token

/-- Stands for the server's number while it is not known. -/
def unknownServer : Int32 := -1

def defaultLifetime : Time := 16000

/-- A client stops using a token this long before the remote does. -/
def expiryMargin : Time := 1000

def empty : Token := ⟨0, unknownServer, .unset⟩

def requested (client : Int32) : Token := ⟨client, unknownServer, .requested⟩

def issued (client server : Int32) (expires : Time) : Token := ⟨client, server, .issued expires⟩

instance : Inhabited Token := ⟨empty⟩

def expires? (t : Token) : Option Time :=
  match t.stage with
  | .issued expires => some expires
  | _ => none

/-- A token is expired from its expiry on. -/
def state (t : Token) (now : Time) : State :=
  match t.stage with
  | .unset => .unset
  | .requested => .requested
  | .issued expires => if expires ≤ now then .expired else .valid

def isValid (t : Token) (now : Time) : Bool :=
  t.state now = .valid

def State.name : State → String
  | .unset => "Unset"
  | .requested => "Requested"
  | .valid => "Valid"
  | .expired => "Expired"

def render (t : Token) (now : Time) : String :=
  "token(client: " ++ Int.repr t.client.toInt ++ ", server: " ++ Int.repr t.server.toInt ++ ", "
    ++ (t.state now).name ++ ")"

theorem isValid_iff {t : Token} {now : Time} :
    t.isValid now = true ↔ ∃ e, t.expires? = some e ∧ now < e := by
  rcases t with ⟨c, s, _ | _ | e⟩ <;> simp [isValid, state, expires?]

end Token
end ServerDiscovery
