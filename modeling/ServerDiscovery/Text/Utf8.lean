import ServerDiscovery.Bytes

/-! Text as UTF-8. Every text has one encoding. Decoding never fails: each maximal run of bytes
that begins a character but cannot complete it becomes one replacement character. -/

namespace ServerDiscovery.Text

def encode (s : String) : Bytes :=
  s.toList.flatMap String.utf8EncodeChar

def replacement : Char := '\uFFFD'

/-- What a first byte promises: how many bytes follow it, and the range of the next one. -/
structure Lead where
  tails : Nat
  low : UInt8
  high : UInt8

/-- The first bytes of the characters beyond ASCII. -/
def Lead.of? (b : UInt8) : Option Lead :=
  if 0xc2 ≤ b ∧ b ≤ 0xdf then some ⟨1, 0x80, 0xbf⟩
  else if b = 0xe0 then some ⟨2, 0xa0, 0xbf⟩
  else if b = 0xed then some ⟨2, 0x80, 0x9f⟩
  else if 0xe1 ≤ b ∧ b ≤ 0xef then some ⟨2, 0x80, 0xbf⟩
  else if b = 0xf0 then some ⟨3, 0x90, 0xbf⟩
  else if 0xf1 ≤ b ∧ b ≤ 0xf3 then some ⟨3, 0x80, 0xbf⟩
  else if b = 0xf4 then some ⟨3, 0x80, 0x8f⟩
  else none

def tailBits (b : UInt8) : Nat := b.toNat % 64

/-- Bytes that a first byte can be followed by: the second in its range, the others any tail. -/
def tailsOf (lead : Lead) (bs : Bytes) : Bytes :=
  match bs with
  | [] => []
  | b :: rest =>
    if lead.low ≤ b ∧ b ≤ lead.high then
      b :: (rest.take (lead.tails - 1)).takeWhile fun t => 0x80 ≤ t && t ≤ 0xbf
    else []

def leadBits (lead : Lead) (b : UInt8) : Nat :=
  b.toNat % Nat.pow 2 (6 - lead.tails)

/-- The characters of a byte string, with a replacement for each maximal ill-formed part. -/
def decodeChars : Bytes → List Char
  | [] => []
  | b :: rest =>
    if b < 0x80 then Char.ofNat b.toNat :: decodeChars rest
    else match Lead.of? b with
      | none => replacement :: decodeChars rest
      | some lead =>
        let tails := tailsOf lead rest
        let c :=
          if tails.length = lead.tails then
            Char.ofNat (tails.foldl (fun n t => n * 64 + tailBits t) (leadBits lead b))
          else replacement
        c :: decodeChars (rest.drop tails.length)
termination_by bs => bs.length
decreasing_by all_goals simp only [List.length_cons, List.length_drop]; omega

def decode (bs : Bytes) : String :=
  String.ofList (decodeChars bs)

end ServerDiscovery.Text
