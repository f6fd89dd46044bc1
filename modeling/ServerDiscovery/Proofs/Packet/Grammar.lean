import ServerDiscovery.Proofs.Packet.Frame

/-! What a datagram from a remote says. Twelve bytes are a token reply, whatever they are; any other
datagram is told by the marker behind its first nine bytes, and one without a marker is refused. -/

namespace ServerDiscovery

theorem ReplyKind.mem_marked_iff {kind : ReplyKind} : kind ∈ marked ↔ kind ≠ .token := by
  cases kind <;> decide

namespace Packet

variable {datagram payload payload' : Bytes} {kind kind' : ReplyKind}

/-- A datagram read as a kind of reply with a payload. -/
inductive Reads (datagram : Bytes) : ReplyKind → Bytes → Prop where
  | token (short : datagram.length = 12) : Reads datagram .token datagram
  | marked {kind : ReplyKind} {payload : Bytes} (header : Bytes) (marked : kind ∈ ReplyKind.marked)
      (long : datagram.length ≠ 12) (nine : header.length = 9)
      (parts : datagram = header ++ kind.marker ++ payload) : Reads datagram kind payload

theorem reads_of_matchResponse (h : matchResponse datagram = .ok (kind, payload)) :
    Reads datagram kind payload := by
  unfold matchResponse at h
  split_ifs at h with htoken hshort
  · obtain ⟨rfl, rfl⟩ := Prod.mk.inj (Except.ok.inj h)
    exact .token htoken
  · dsimp only at h
    split at h
    · rename_i found hfound
      obtain ⟨rfl, rfl⟩ := Prod.mk.inj (Except.ok.inj h)
      have hmarker := List.find?_some hfound
      obtain ⟨rest, hrest⟩ := List.isPrefixOf_iff_prefix.mp hmarker
      have hnine : (datagram.take 9).length = 9 :=
        List.length_take_of_le (Nat.le_of_not_lt hshort)
      refine .marked (datagram.take 9) (List.mem_of_find?_eq_some hfound) htoken hnine ?_
      rw [← hrest, List.drop_left, List.append_assoc, hrest]
      exact (List.take_append_drop 9 datagram).symm
    · cases h

theorem Reads.matchResponse (h : Reads datagram kind payload) :
    matchResponse datagram = .ok (kind, payload) := by
  cases h with
  | token short => exact if_pos short
  | marked header hmarked long nine parts =>
    rw [parts]
    exact matchResponse_marked nine (ReplyKind.mem_marked_iff.mp hmarked) payload

theorem matchResponse_eq_ok_iff :
    matchResponse datagram = .ok (kind, payload) ↔ Reads datagram kind payload :=
  ⟨reads_of_matchResponse, Reads.matchResponse⟩

theorem Reads.unique (h : Reads datagram kind payload) (h' : Reads datagram kind' payload') :
    kind = kind' ∧ payload = payload' :=
  Prod.mk.inj (Except.ok.inj (h.matchResponse.symm.trans h'.matchResponse))

theorem Reads.length_eq (h : Reads datagram kind payload) (hkind : kind ≠ .token) :
    datagram.length = 9 + kind.marker.length + payload.length := by
  cases h with
  | token short => exact absurd rfl hkind
  | marked header hmarked long nine parts =>
    rw [parts, List.length_append, List.length_append, nine]

theorem fault_of_matchResponse {fault : Wire.Fault} (h : matchResponse datagram = .error fault) :
    fault = .badHeader datagram.length := by
  unfold matchResponse at h
  split_ifs at h with htoken hshort
  · exact (Except.error.inj h).symm
  · dsimp only at h
    split at h
    · cases h
    · exact (Except.error.inj h).symm

theorem matchResponse_eq_error_iff {fault : Wire.Fault} :
    matchResponse datagram = .error fault ↔
      fault = .badHeader datagram.length ∧ ∀ kind payload, ¬ Reads datagram kind payload := by
  constructor
  · intro h
    refine ⟨fault_of_matchResponse h, fun kind payload hreads => ?_⟩
    have hok := hreads.matchResponse
    rw [h] at hok
    cases hok
  · rintro ⟨rfl, hnone⟩
    cases h : matchResponse datagram with
    | ok reading => exact absurd (reads_of_matchResponse h) (hnone reading.1 reading.2)
    | error fault => rw [fault_of_matchResponse h]

theorem reads_response (client server : Int32) (hkind : kind ∈ ReplyKind.marked) (payload : Bytes) :
    Reads (response client server kind payload) kind payload :=
  reads_of_matchResponse (matchResponse_marked (Token.length_followUpHeader client server)
    (ReplyKind.mem_marked_iff.mp hkind) payload)

theorem Reads.expectResponse (h : Reads datagram kind payload) (expected : ReplyKind) :
    expectResponse datagram expected =
      if expected = kind then .ok payload else .error (.otherReply expected kind) := by
  unfold Packet.expectResponse
  rw [h.matchResponse]
  by_cases heq : kind = expected
  · rw [if_pos heq.symm]
    exact if_pos heq
  · rw [if_neg (Ne.symm heq)]
    exact if_neg heq

/-- A datagram is accepted as what the grammar makes of it, which is one thing at most, and refused
with its length where the grammar makes nothing of it. So a reply that was built is read as what it
was built from, and turns away who expects another. -/
theorem matchResponse_grammar (datagram : Bytes) :
    (∀ payload, matchResponse datagram = .ok (.token, payload) ↔
      datagram.length = 12 ∧ payload = datagram) ∧
    (∀ kind ∈ ReplyKind.marked, ∀ payload, matchResponse datagram = .ok (kind, payload) ↔
      datagram.length ≠ 12 ∧ ∃ header : Bytes, header.length = 9 ∧
        datagram = header ++ kind.marker ++ payload) ∧
    ((∀ kind payload, ¬ Reads datagram kind payload) ↔
      matchResponse datagram = .error (.badHeader datagram.length)) ∧
    (∀ kind payload kind' payload', Reads datagram kind payload → Reads datagram kind' payload' →
      kind = kind' ∧ payload = payload') ∧
    ∀ (client server : Int32), ∀ kind ∈ ReplyKind.marked, ∀ payload,
      matchResponse (response client server kind payload) = .ok (kind, payload) ∧
      ∀ expected, expectResponse (response client server kind payload) expected =
        if expected = kind then .ok payload else .error (.otherReply expected kind) := by
  refine ⟨fun payload => matchResponse_eq_token_iff, fun kind hkind payload => ?_, ?_, ?_, ?_⟩
  · rw [matchResponse_eq_ok_iff]
    constructor
    · intro h
      cases h with
      | token short => exact absurd rfl (ReplyKind.mem_marked_iff.mp hkind)
      | marked header _ long nine parts => exact ⟨long, header, nine, parts⟩
    · rintro ⟨long, header, nine, parts⟩
      exact .marked header hkind long nine parts
  · rw [matchResponse_eq_error_iff]
    exact ⟨fun h => ⟨rfl, h⟩, fun h => h.2⟩
  · intro kind payload kind' payload' h h'
    exact h.unique h'
  · intro client server kind hkind payload
    have hreads := reads_response client server hkind payload
    exact ⟨hreads.matchResponse, hreads.expectResponse⟩

def stump : Bytes := [0x21, 0, 0, 0, 11, 0, 0, 0, 22, 0xff, 0xff, 0xff]

theorem matchResponse_stump :
    Reads stump .token stump ∧ .info ∈ ReplyKind.marked ∧
      matchResponse stump = .ok (.token, stump) ∧
      matchResponse stump ≠ .ok (.info, []) ∧
      matchResponse (response 11 22 .info [0xff]) = .ok (.info, [0xff]) ∧
      expectResponse (response 11 22 .info [0xff]) .list = .error (.otherReply .list .info) := by
  have hinfo : ReplyKind.info ∈ ReplyKind.marked := by decide
  have hstump : Reads stump .token stump := .token rfl
  obtain ⟨htoken, hmarked, -, hunique, hbuilt⟩ := matchResponse_grammar stump
  obtain ⟨hmatch, hexpect⟩ := hbuilt 11 22 .info hinfo [0xff]
  refine ⟨hstump, hinfo, (htoken stump).mpr ⟨rfl, rfl⟩, fun h => ?_, hmatch, hexpect .list⟩
  exact ((hmarked .info hinfo []).mp h).1 rfl

end Packet
end ServerDiscovery
