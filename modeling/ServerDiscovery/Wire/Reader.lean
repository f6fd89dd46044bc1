import ServerDiscovery.Text.Utf8
import ServerDiscovery.Wire.Varint

/-! Records are rows of fields without lengths in front of them. A reader takes its field off the
front of the bytes; one that fails leaves them as they were. -/

namespace ServerDiscovery.Wire

def terminator : UInt8 := 0

inductive Field where
  | int (v : Int32)
  | text (s : String)
  | byte (b : UInt8)
  | block (bs : Bytes)
  deriving DecidableEq, Repr

def Field.encode : Field → Bytes
  | .int v => Varint.encode v
  | .text s => Text.encode s ++ [terminator]
  | .byte b => [b]
  | .block bs => bs

def encodeFields (fields : List Field) : Bytes :=
  fields.flatMap Field.encode

/-- Control characters that lay text out: tab, line feed, carriage return. -/
def layoutControls : Bytes := [0x09, 0x0a, 0x0d]

/-- Control bytes that are not kept become blanks. -/
def blank (keep : Bytes) (b : UInt8) : UInt8 :=
  if b < 0x20 ∧ b ∉ keep then 0x20 else b

abbrev Reader := StateT Bytes (Except Fault)

namespace Reader

def int : Reader Int32 := Varint.decode

def byte : Reader UInt8 := fun
  | [] => .error .truncated
  | b :: rest => .ok (b, rest)

def block (size : Nat) : Reader Bytes := fun bs =>
  if bs.length < size then .error .truncated
  else .ok (bs.take size, bs.drop size)

def rawText : Reader Bytes := fun bs =>
  if bs.isEmpty then .error .truncated
  else if terminator ∈ bs then
    .ok (bs.takeWhile (· ≠ terminator), (bs.dropWhile (· ≠ terminator)).drop 1)
  else .error (.malformed .unterminatedText)

def text : Reader String :=
  Text.decode <$> rawText

/-- A text whose control characters, but for those to keep, are blanks. -/
def blankedText (keep : Bytes) : Reader String :=
  (fun raw => Text.decode (raw.map (blank keep))) <$> rawText

inductive Request where
  | int
  | text
  | blankedText (keep : Bytes)
  | byte
  | block (size : Nat)
  deriving DecidableEq, Repr

def field : Request → Reader Field
  | .int => .int <$> int
  | .text => .text <$> text
  | .blankedText keep => .text <$> blankedText keep
  | .byte => .byte <$> byte
  | .block size => .block <$> block size

/-- One request after the other: each outcome with the bytes unread after it. -/
def attempts : List Request → Bytes → List (Except Fault Field × Bytes)
  | [], _ => []
  | r :: rs, bs =>
    match field r bs with
    | .ok (v, rest) => (.ok v, rest) :: attempts rs rest
    | .error fault => (.error fault, bs) :: attempts rs bs

end Reader
end ServerDiscovery.Wire
