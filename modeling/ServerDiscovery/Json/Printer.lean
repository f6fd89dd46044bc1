import ServerDiscovery.Text.Digits

/-! Compact JSON: no blanks, members in their order, and only what must be escaped is. -/

namespace ServerDiscovery.Json

def escapedChar (c : Char) : List Char :=
  match c with
  | '"' => ['\\', '"']
  | '\\' => ['\\', '\\']
  | '\x08' => ['\\', 'b']
  | '\x0c' => ['\\', 'f']
  | '\n' => ['\\', 'n']
  | '\r' => ['\\', 'r']
  | '\t' => ['\\', 't']
  | c =>
    if c.toNat < 0x20 then
      ['\\', 'u', '0', '0', Nat.digitChar (c.toNat / 16), Nat.digitChar (c.toNat % 16)]
    else [c]

def writeText (s : String) : List Char :=
  '"' :: s.toList.flatMap escapedChar ++ ['"']

def writeInt (v : Int) : List Char := Text.signedDecimal v

def separated (items : List (List Char)) : List Char :=
  [','].intercalate items

def writeList (items : List (List Char)) : List Char :=
  '[' :: separated items ++ [']']

def writeObject (members : List (String × List Char)) : List Char :=
  '\x7b' :: separated (members.map fun m => writeText m.1 ++ ':' :: m.2) ++ ['\x7d']

end ServerDiscovery.Json
