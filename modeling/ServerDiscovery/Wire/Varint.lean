import ServerDiscovery.Wire.Fault

/-! Signed integers of variable length. The first byte holds an extend bit, the sign and six bits
of the magnitude, every later one an extend bit and seven more; a negative number is stored by its
complement, so -1 takes one byte. Reading back what was written gives the number, whatever
follows. -/

namespace ServerDiscovery.Wire.Varint

def maxLength : Nat := 5

/-- The bits that are stored: those of the number, complemented if it is negative. -/
def magnitude (v : Int32) : Nat :=
  if v < 0 then (~~~ v).toUInt32.toNat else v.toUInt32.toNat

/-- The sign, as the first byte carries it. -/
def signBit (v : Int32) : Nat := if v < 0 then 64 else 0

/-- A byte of content `low`, extended by seven bits at a time while any of `rest` are left. -/
def extend (low rest : Nat) : Bytes :=
  if rest = 0 then [UInt8.ofNat low]
  else UInt8.ofNat (low + 128) :: extend (rest % 128) (rest / 128)
termination_by rest
decreasing_by omega

def encode (v : Int32) : Bytes :=
  extend (signBit v + magnitude v % 64) (magnitude v / 64)

def groups (rest : Nat) : Nat :=
  if rest = 0 then 0 else groups (rest / 128) + 1
termination_by rest
decreasing_by omega

def encodedLength (v : Int32) : Nat :=
  groups (magnitude v / 64) + 1

/-- The bits of at most `limit` more bytes, lowest group first. -/
def continuation : Nat → Bytes → Except Fault (Nat × Bytes)
  | 0, _ => .error .oversizedInteger
  | _ + 1, [] => .error .truncated
  | limit + 1, b :: rest =>
    if b < 128 then .ok (b.toNat, rest)
    else do
      let (high, rest) ← continuation limit rest
      .ok (b.toNat % 128 + 128 * high, rest)

/-- Bits beyond the thirty-second are dropped before the sign is applied. -/
def ofMagnitude (negative : Bool) (bits : Nat) : Int32 :=
  let v := (UInt32.ofNat bits).toInt32
  if negative then ~~~ v else v

def decode : Bytes → Except Fault (Int32 × Bytes)
  | [] => .error .truncated
  | b :: rest =>
    let negative := b.toNat / 64 % 2 = 1
    let low := b.toNat % 64
    if b < 128 then .ok (ofMagnitude negative low, rest)
    else do
      let (high, rest) ← continuation (maxLength - 1) rest
      .ok (ofMagnitude negative (low + 64 * high), rest)

end ServerDiscovery.Wire.Varint
