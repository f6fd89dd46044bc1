import ServerDiscovery.Address.Socket
import ServerDiscovery.Text.Digits

/-! Addresses as text. An IPv6 address is printed with its first longest run of two or more zero
groups shortened, and with an IPv4 tail if it is a mapped one; every spelling is read. -/

namespace ServerDiscovery

open Text

def joinChars (separator : List Char) (items : List (List Char)) : List Char :=
  separator.intercalate items

namespace Ip4

def render (ip : Ip4) : List Char :=
  joinChars ['.'] (ip.octets.map fun b => decimal b.toNat)

end Ip4

namespace Ip6

def zerosFrom (gs : List UInt16) (i : Nat) : Nat :=
  ((gs.drop i).takeWhile (· = 0)).length

/-- Where the longest run of zero groups starts, the first of equally long ones. -/
def longestZeros (gs : List UInt16) : Nat :=
  (List.range gs.length).foldl (fun best i => if zerosFrom gs best < zerosFrom gs i then i else best) 0

def renderGroups (gs : List UInt16) : List Char :=
  joinChars [':'] (gs.map fun g => hexadecimal g.toNat)

def render (ip : Ip6) : List Char :=
  match ip.unmapped? with
  | some ip4 => "::ffff:".toList ++ ip4.render
  | none =>
    let start := longestZeros ip.groups
    let zeros := zerosFrom ip.groups start
    if 1 < zeros then
      renderGroups (ip.groups.take start) ++ [':', ':']
        ++ renderGroups (ip.groups.drop (start + zeros))
    else renderGroups ip.groups

end Ip6

def Ip.render : Ip → List Char
  | v4 ip => ip.render
  | v6 ip => ip.render

namespace SocketAddress

def render : SocketAddress → List Char
  | v4 ip port => ip.render ++ ':' :: decimal port.toNat
  | v6 ip port _ scope =>
    '[' :: ip.render ++ (if scope = 0 then [] else '%' :: decimal scope.toNat)
      ++ ']' :: ':' :: decimal port.toNat

def toString (a : SocketAddress) : String := String.ofList a.render

end SocketAddress

/-- A reader that takes what it recognises off the front, or nothing. -/
abbrev Scan := StateT (List Char) Option

namespace Scan

def char (c : Char) : Scan Unit := fun
  | [] => none
  | x :: rest => if x = c then some ((), rest) else none

/-- A number of at most `bound`, with a limit on its digits where there is one. -/
def number (base : Nat) (most : Option Nat) (leadingZeros : Bool) (bound : Nat) : Scan Nat :=
  fun cs =>
    let run := cs.takeWhile (isDigit base)
    let value := ofDigits base run
    if run = [] ∨ (∃ m ∈ most, m < run.length) ∨ bound < value
        ∨ (leadingZeros = false ∧ run.head? = some '0' ∧ 1 < run.length) then none
    else some (value, cs.dropWhile (isDigit base))

/-- An item of a row: all but the first have a separator in front. -/
def item (separator : Char) (first : Bool) (scan : Scan α) : Scan α := do
  if !first then char separator
  scan

def octet : Scan UInt8 :=
  UInt8.ofNat <$> number 10 (some 3) false 255

def group : Scan UInt16 :=
  UInt16.ofNat <$> number 16 (some 4) true 65535

def ip4 : Scan Ip4 := do
  let a ← octet
  let b ← item '.' false octet
  let c ← item '.' false octet
  let d ← item '.' false octet
  return ⟨a, b, c, d⟩

/-- At most `limit` groups, the last two of which may be written as an IPv4 address; tells whether
they were. -/
def groups : Nat → Bool → List Char → List UInt16 × Bool × List Char
  | 0, _, cs => ([], false, cs)
  | limit + 1, first, cs =>
    match if 0 < limit then item ':' first ip4 cs else none with
    | some (ip, rest) => (ip.groups, true, rest)
    | none =>
      match item ':' first group cs with
      | some (g, rest) =>
        let (gs, tail4, rest) := groups limit false rest
        (g :: gs, tail4, rest)
      | none => ([], false, cs)

/-- Eight groups, or fewer around a double colon that stands for at least one zero group. -/
def ip6 : Scan Ip6 := fun cs =>
  let (head, tail4, rest) := groups 8 true cs
  if head.length = 8 then some (Ip6.ofGroups head, rest)
  else if tail4 then none
  else match rest with
    | ':' :: ':' :: rest =>
      let (tail, _, rest) := groups (7 - head.length) true rest
      let zeros := List.replicate (8 - head.length - tail.length) 0
      some (Ip6.ofGroups (head ++ zeros ++ tail), rest)
    | _ => none

def port : Scan UInt16 := do
  char ':'
  UInt16.ofNat <$> number 10 none true 65535

def scope : Scan UInt32 := do
  char '%'
  UInt32.ofNat <$> number 10 none true 4294967295

def socket4 : Scan SocketAddress := do
  let ip ← ip4
  let p ← port
  return .v4 ip p

def socket6 : Scan SocketAddress := do
  char '['
  let ip ← ip6
  let s ← scope <|> pure 0
  char ']'
  let p ← port
  return .v6 ip p 0 s

end Scan

/-- The socket address that a text denotes; nothing may stand around it. -/
def SocketAddress.ofString? (s : String) : Option SocketAddress :=
  match (Scan.socket4 <|> Scan.socket6) s.toList with
  | some (a, []) => some a
  | _ => none

end ServerDiscovery
