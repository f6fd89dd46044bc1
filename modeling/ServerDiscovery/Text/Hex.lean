import ServerDiscovery.Bytes
import ServerDiscovery.Text.Digits

/-! Bytes as pairs of hexadecimal digits. -/

namespace ServerDiscovery.Text

def hex (bs : Bytes) : String :=
  String.ofList <|
    bs.flatMap fun b => [Nat.digitChar (b.toNat / 16), Nat.digitChar (b.toNat % 16)]

def unhexChars? : List Char → Option Bytes
  | [] => some []
  | [_] => none
  | a :: b :: rest => do
    let high ← digit? 16 a
    let low ← digit? 16 b
    let bs ← unhexChars? rest
    return UInt8.ofNat (high * 16 + low) :: bs

def unhex? (s : String) : Option Bytes := unhexChars? s.toList

end ServerDiscovery.Text
