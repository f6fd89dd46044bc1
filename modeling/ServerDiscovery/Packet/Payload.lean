import ServerDiscovery.Address.Endpoint
import ServerDiscovery.Wire.Fault

/-! What list and count answers carry. A list of servers is cut into datagrams of 75 entries. -/

namespace ServerDiscovery.Packet

def chunkSize : Nat := 75

def maxCountSize : Nat := 4

def maxCount : Nat := 65535

/-- A list in pieces of `size`, the last one shorter. -/
def chunks (size : Nat) (xs : List α) : List (List α) :=
  if xs = [] ∨ size = 0 then []
  else xs.take size :: chunks size (xs.drop size)
termination_by xs.length
decreasing_by
  rename_i h
  have := List.length_pos_iff.mpr fun e => h (.inl e)
  simp only [List.length_drop]
  omega

def listPayloads (servers : List Endpoint) : List Bytes :=
  (chunks chunkSize servers).map fun chunk => chunk.flatMap Endpoint.toEntry

/-- The servers of a payload; bytes that are no whole entry are left over. -/
def parseList (payload : Bytes) : List Endpoint :=
  if payload.length < Endpoint.entrySize then []
  else
    Endpoint.ofEntry (payload.take Endpoint.entrySize)
      :: parseList (payload.drop Endpoint.entrySize)
termination_by payload.length
decreasing_by
  simp only [List.length_drop, Endpoint.entrySize] at *
  omega

def countPayload (count : UInt16) : Bytes := Bytes.ofUInt16 count

def statedCount (servers : Nat) : UInt16 := UInt16.ofNat (min servers maxCount)

/-- Each byte shifted by the number of bytes behind it, bits and not bytes, all of them joined. -/
def countBits : Bytes → Nat
  | [] => 0
  | b :: rest => b.toNat <<< rest.length ||| countBits rest

def parseCount (payload : Bytes) : Except Wire.Fault Nat :=
  if maxCountSize < payload.length then .error (.malformed .longServerCount)
  else .ok (countBits payload)

end ServerDiscovery.Packet
