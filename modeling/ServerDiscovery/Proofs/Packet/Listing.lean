import ServerDiscovery.Proofs.Packet.Frame
import ServerDiscovery.Proofs.Packet.Payload

/-! The list of servers in its payloads. Writing cuts it into pieces of one size, and reading joins
what the pieces hold; what was read from any bytes is written again as these bytes, less the end of
them that is no entry. -/

namespace ServerDiscovery.Packet

open Endpoint

theorem flatMap_toEntry_parseList (payload : Bytes) :
    (parseList payload).flatMap toEntry = payload.take (18 * (payload.length / 18)) := by
  fun_induction parseList payload with
  | case1 payload hshort =>
    have hnone : payload.length / 18 = 0 := Nat.div_eq_of_lt hshort
    rw [hnone]
    rfl
  | case2 payload hlong ih =>
    have hsize : 18 ≤ payload.length := Nat.le_of_not_lt hlong
    have hentry : (payload.take entrySize).length = entrySize := List.length_take_of_le hsize
    have hmore : 18 * (payload.length / 18) = 18 + 18 * ((payload.length - 18) / 18) := by omega
    rw [List.flatMap_cons, toEntry_ofEntry hentry, ih, hmore, List.take_add, List.length_drop]
    rfl

theorem length_parseList (payload : Bytes) :
    (parseList payload).length = payload.length / 18 := by
  have hbytes := congrArg List.length (flatMap_toEntry_parseList payload)
  rw [length_flatMap_toEntry, List.length_take, entrySize] at hbytes
  omega

theorem exists_piece {servers : List Endpoint} {i : Nat} {payload : Bytes}
    (h : (listPayloads servers)[i]? = some payload) : ∃ piece,
      (chunks chunkSize servers)[i]? = some piece ∧ payload = piece.flatMap toEntry := by
  unfold listPayloads at h
  rw [List.getElem?_map] at h
  obtain ⟨piece, hpiece, rfl⟩ := Option.map_eq_some_iff.mp h
  exact ⟨piece, hpiece, rfl⟩

theorem flatMap_parseList_listPayloads (servers : List Endpoint) :
    (listPayloads servers).flatMap parseList = servers := by
  unfold listPayloads
  rw [List.flatMap_map]
  simp only [parseList_flatMap_toEntry, List.flatMap_id']
  exact flatten_chunks (by decide) servers

theorem length_listResponse (client server : Int32) (payload : Bytes) :
    (response client server .list payload).length = 17 + payload.length :=
  length_response client server .list payload

/-- A list goes into as many payloads as its pieces of 75, each full but the last, which is not
empty, and each within a datagram of 1367 bytes; they hold the list in its order. And what is read
from any bytes is written again as all of them that are entries. -/
theorem list_codec :
    (∀ servers : List Endpoint,
      (listPayloads servers).length = (servers.length + 74) / 75 ∧
      (∀ i payload, (listPayloads servers)[i]? = some payload →
        payload.length = 18 * (parseList payload).length ∧
        1 ≤ (parseList payload).length ∧ (parseList payload).length ≤ 75 ∧
        (i + 1 < (listPayloads servers).length → (parseList payload).length = 75) ∧
        ∀ client server, (response client server .list payload).length ≤ 1367) ∧
      (listPayloads servers).flatMap parseList = servers) ∧
    ∀ payload, (parseList payload).flatMap toEntry = payload.take (18 * (payload.length / 18)) := by
  refine ⟨fun servers => ⟨?_, ?_, flatMap_parseList_listPayloads servers⟩,
    flatMap_toEntry_parseList⟩
  · unfold listPayloads
    rw [List.length_map, length_chunks (by decide)]
    rfl
  · intro i payload h
    have hcount : (listPayloads servers).length = (chunks chunkSize servers).length :=
      List.length_map ..
    obtain ⟨piece, hpiece, rfl⟩ := exists_piece h
    obtain ⟨hone, hfits, hfull⟩ := length_of_mem_chunks hpiece (by decide)
    have hbytes : (piece.flatMap toEntry).length = 18 * piece.length :=
      length_flatMap_toEntry piece
    rw [parseList_flatMap_toEntry, hcount]
    refine ⟨hbytes, hone, hfits, hfull, fun client server => ?_⟩
    rw [length_listResponse, hbytes]
    have hmost : piece.length ≤ 75 := hfits
    omega

def crowd : List Endpoint :=
  List.replicate 75 (.ofSocket (.v4 ⟨10, 0, 0, 1⟩ 8303)) ++
    [.ofSocket (.v6 ⟨0x2001, 0xdb8, 0, 0, 0, 0, 0, 5⟩ 8304 7 0)]

def crowdPayload : Bytes := (crowd.take chunkSize).flatMap toEntry

theorem list_codec_crowd : (listPayloads crowd)[0]? = some crowdPayload ∧
    0 + 1 < (listPayloads crowd).length ∧ (listPayloads crowd).length = 2 ∧
    (parseList crowdPayload).length = 75 ∧ (listPayloads crowd).flatMap parseList = crowd ∧
    (parseList (crowdPayload ++ [0xab])).flatMap toEntry = crowdPayload := by
  have hfirst : (listPayloads crowd)[0]? = some crowdPayload := by
    have hcrowd : crowd ≠ [] := by decide
    rw [listPayloads_of_ne_nil hcrowd]
    rfl
  obtain ⟨hlists, hbytes⟩ := list_codec
  obtain ⟨hlength, hpayload, hjoin⟩ := hlists crowd
  have hnext : 0 + 1 < (listPayloads crowd).length := by
    rw [hlength]
    decide
  obtain ⟨hsize, -, -, hfull, -⟩ := hpayload 0 crowdPayload hfirst
  have hwhole : crowdPayload.length = 18 * 75 := by rw [hsize, hfull hnext]
  refine ⟨hfirst, hnext, hlength, hfull hnext, hjoin, ?_⟩
  rw [hbytes, List.length_append, hwhole]
  exact List.take_left' hwhole

end ServerDiscovery.Packet
