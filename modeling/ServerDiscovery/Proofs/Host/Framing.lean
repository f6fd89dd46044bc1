import ServerDiscovery.Proofs.Host.Lifespan

/-! Client and host agree on where a frame has its numbers. What one side builds the other reads as
it was meant, whatever bytes follow, and no datagram is meant in two ways. -/

namespace ServerDiscovery.Host

variable {h : Host} {client server : Int32} {datagram : Bytes} {q : Question} {a : SocketAddress}
  {now : Time}

theorem replies_of_question (htokens : Packet.requestTokens datagram = .ok (server, client))
    (hbody : Question.ofBody? (datagram.drop Token.headerSize) = some q) :
    (h.answer now datagram a).1 =
      if h.drops = false ∧ h.ledger.held? a now = some server then
        ((h.role.payloads? q).getD []).map (Packet.response client server q.reply)
      else [] := by
  have hreaction := h.reaction now datagram a
  generalize h.answer now datagram a = after at hreaction ⊢
  cases hreaction with
  | lost hdrops =>
    rw [if_neg fun hheld => ?_]
    rw [hdrops] at hheld
    cases hheld.1
  | requested hdrops hrequest =>
    rw [Packet.requestTokens_of_isRequest hrequest] at htokens
    cases htokens
  | asked hdrops htokens' hheld hbody' hpayloads =>
    obtain ⟨rfl, rfl⟩ := Prod.mk.inj (Except.ok.inj (htokens'.symm.trans htokens))
    obtain rfl := Option.some.inj (hbody'.symm.trans hbody)
    rw [if_pos ⟨hdrops, hheld⟩, hpayloads]
    rfl
  | refused hdrops htokens' hrefused =>
    obtain ⟨rfl, rfl⟩ := Prod.mk.inj (Except.ok.inj (htokens'.symm.trans htokens))
    split_ifs with hheld
    · rw [hrefused hheld.2 q hbody]
      rfl
    · rfl
  | unread _ _ hcarries =>
    exact absurd (Packet.carries_iff_requestTokens.mpr ⟨client, htokens⟩) (hcarries server)

/-- Client and host agree on frames. With any bytes behind it, the follow-up of a valid token is read
as its two numbers and its question and asks for no token, and the frame that asks for one is read
as asking in the name of its number and as no follow-up; nothing at all is read as both. A granted
token has the two numbers it was granted with. Whatever a host sends back for a question has the two
numbers the other way round in its header, and is what whoever asked expects. -/
theorem framing_agrees (client server : Int32) (rest : Bytes) :
    (∀ expires now q, now < expires → ∃ frame,
      Packet.request (.issued client server expires) q now = .ok frame ∧
      Packet.requestTokens (frame ++ rest) = .ok (server, client) ∧
      Token.isRequest (frame ++ rest) = false ∧
      Question.ofBody? ((frame ++ rest).drop Token.headerSize) = some q) ∧
    (let frame := (Token.requested client).requestFrame ++ rest
     Token.isRequest frame = true ∧ Token.requestedClient frame = .ok client ∧
      Packet.requestTokens frame = .error (.badHeader frame.length)) ∧
    (∀ lifetime now, Token.ofResponse (Token.responseFrame client server) lifetime now =
      .ok (.issued client server (now + (lifetime - Token.expiryMargin)))) ∧
    (∀ datagram tokens, Token.isRequest datagram = true →
      Packet.requestTokens datagram ≠ .ok tokens) ∧
    (∀ (q : Question) payload,
      Packet.requestTokens (Packet.response client server q.reply payload) = .ok (client, server) ∧
      Packet.expectResponse (Packet.response client server q.reply payload) q.reply
        = .ok payload) ∧
    ∀ (h : Host) now a q datagram, Packet.requestTokens datagram = .ok (server, client) →
      Question.ofBody? (datagram.drop Token.headerSize) = some q →
      (h.answer now datagram a).1 =
        if h.drops = false ∧ h.ledger.held? a now = some server then
          ((h.role.payloads? q).getD []).map (Packet.response client server q.reply)
        else [] := by
  refine ⟨fun expires now q hvalid => ?_, ⟨?_, ?_, ?_⟩, ?_, ?_, fun q payload => ⟨?_, ?_⟩, ?_⟩
  · have hissued : (Token.issued client server expires).isValid now = true :=
      Token.isValid_iff.mpr ⟨expires, rfl, hvalid⟩
    have htokens : Packet.requestTokens (Token.followUpHeader server client ++ q.marker ++ rest)
        = .ok (server, client) := by
      rw [List.append_assoc]
      exact Packet.requestTokens_followUp server client _
    refine ⟨_, Packet.request_eq_ok_iff.mpr ⟨hissued, rfl⟩, htokens, ?_, ?_⟩
    · exact (Packet.carries_iff_requestTokens.mpr ⟨client, htokens⟩).isRequest_eq_false
    · exact Packet.ofBody?_followUp_append server client q rest
  · exact Token.isRequest_requestFrame_append _ rest
  · exact Token.requestedClient_requestFrame_append _ rest
  · exact Packet.requestTokens_of_isRequest (Token.isRequest_requestFrame_append _ rest)
  · exact Token.ofResponse_responseFrame client server
  · intro datagram tokens hrequest htokens
    rw [Packet.requestTokens_of_isRequest hrequest] at htokens
    cases htokens
  · exact Packet.requestTokens_response client server q.reply payload
  · exact Packet.expectResponse_response client server q.reply_ne_token payload
  · intro h now a q datagram htokens hbody
    exact replies_of_question htokens hbody

theorem framing_agrees_negative :
    let client := Int32.minValue
    let holder := SocketAddress.v4 ⟨10, 0, 0, 1⟩ 40000
    let asking := (Token.requested client).requestFrame ++ [0xff]
    let question := Token.followUpHeader (-1) client ++ Question.count.marker ++ [0xff]
    let h := ((Host.new (.master []) {} fun _ => -1).answer 0 asking holder).2
    (∃ frame, Packet.request (.issued client (-1) 15000) .count 14999 = .ok frame ∧
      Packet.requestTokens (frame ++ [0xff]) = .ok (-1, client)) ∧
    (∀ tokens, Packet.requestTokens asking ≠ .ok tokens) ∧
    (h.answer 30000 question holder).1 = [Packet.response client (-1) .count [0, 0]] ∧
    (h.answer 30001 question holder).1 = [] := by
  intro client holder asking question h
  obtain ⟨hrequest, hasking, -, hapart, -, hreplies⟩ := framing_agrees client (-1) [0xff]
  have htokens : Packet.requestTokens question = .ok (-1, client) := by decide +kernel
  have hbody : Question.ofBody? (question.drop Token.headerSize) = some .count := by decide +kernel
  refine ⟨?_, fun tokens => hapart asking tokens hasking.1, ?_, ?_⟩
  · obtain ⟨frame, hframe, hread, -⟩ := hrequest 15000 14999 .count (by decide)
    exact ⟨frame, hframe, hread⟩
  · rw [hreplies h 30000 holder .count question htokens hbody]
    decide +kernel
  · rw [hreplies h 30001 holder .count question htokens hbody]
    decide +kernel

end ServerDiscovery.Host
