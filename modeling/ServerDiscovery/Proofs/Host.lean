import ServerDiscovery.Host
import ServerDiscovery.Proofs.Packet.Frame
import ServerDiscovery.Proofs.Token.Ledger

/-! A host that loses nothing any more, seen from one address. The first request brings a token, and
from then on each request brings it again and each question brings what the role answers it with. -/

namespace ServerDiscovery

namespace Host

variable {h : Host} {a : SocketAddress} {client server : Int32} {now : Time}

/-- A host that takes in every datagram from now on. -/
structure Receptive (h : Host) : Prop where
  dropped : h.settings.dropFirst ≤ h.stats.received
  loses : ∀ n, h.settings.loses n = false

/-- One that has granted a live token to an address besides. -/
structure Holding (a : SocketAddress) (server : Int32) (now : Time) (h : Host) : Prop
    extends Receptive h where
  held : ∃ e, h.ledger.live? a now = some e ∧ e.server = server

theorem Stats.received_note (s : Stats) (v : Verdict) : (s.note v).received = s.received + 1 := by
  rcases v with _ | _ | (_ | _ | _) | _ <;> rfl

theorem received_answer (h : Host) (now : Time) (datagram : Bytes) (a : SocketAddress) :
    (h.answer now datagram a).2.stats.received = h.stats.received + 1 := by
  unfold answer
  split_ifs <;> exact Stats.received_note _ _

theorem Receptive.drops_eq_false (hh : Receptive h) : h.drops = false := by
  simp [drops, hh.loses, hh.dropped]

theorem Receptive.answer_eq (hh : Receptive h) (now : Time) (datagram : Bytes)
    (a : SocketAddress) : ∃ stats, h.stats.received ≤ stats.received ∧
      h.answer now datagram a = ((h.handle now datagram a).2.1,
        { h with ledger := (h.handle now datagram a).2.2, stats }) := by
  have hcount := received_answer h now datagram a
  unfold answer at hcount ⊢
  rw [hh.drops_eq_false] at hcount ⊢
  exact ⟨_, hcount ▸ Nat.le_succ _, rfl⟩

theorem handle_of_requestedClient {datagram : Bytes} (h : Host) (now : Time) (a : SocketAddress)
    (hclient : Token.requestedClient datagram = .ok client) :
    h.handle now datagram a =
      (.token, ((h.ledger.issue a client now).1.map (Token.responseFrame client)).toList,
        (h.ledger.issue a client now).2) := by
  unfold handle
  rw [hclient]
  dsimp only
  rcases h.ledger.issue a client now with ⟨_ | server, ledger⟩ <;> rfl

theorem handle_request (h : Host) (now : Time) (client : Int32) (a : SocketAddress) :
    h.handle now (Token.requested client).requestFrame a =
      (.token, ((h.ledger.issue a client now).1.map (Token.responseFrame client)).toList,
        (h.ledger.issue a client now).2) :=
  handle_of_requestedClient h now a (Token.requestedClient_requestFrame client)

theorem handle_of_asked {datagram : Bytes} {q : Question} {payloads : List Bytes}
    (hrequest : Token.isRequest datagram = false)
    (htokens : Packet.requestTokens datagram = .ok (server, client))
    (hvalid : (h.ledger.validate a server now).1 = true)
    (hbody : Question.ofBody? (datagram.drop Token.headerSize) = some q)
    (hpayloads : h.role.payloads? q = some payloads) :
    h.handle now datagram a = (.asked q, payloads.map (Packet.response client server q.reply),
      (h.ledger.validate a server now).2) := by
  obtain ⟨fault, hclient⟩ := Token.requestedClient_of_not_isRequest hrequest
  unfold handle
  rw [hclient]
  dsimp only
  rw [htokens]
  dsimp only
  rcases hledger : h.ledger.validate a server now with ⟨ok, ledger⟩
  rw [hledger] at hvalid
  obtain rfl : ok = true := hvalid
  simp only [hbody, hpayloads]

theorem handle_of_refused {datagram : Bytes} (hrequest : Token.isRequest datagram = false)
    (htokens : Packet.requestTokens datagram = .ok (server, client))
    (hrefused : (h.ledger.validate a server now).1 = true →
      ∀ q, Question.ofBody? (datagram.drop Token.headerSize) = some q →
        h.role.payloads? q = none) :
    h.handle now datagram a = (.rejected, [], (h.ledger.validate a server now).2) := by
  obtain ⟨fault, hclient⟩ := Token.requestedClient_of_not_isRequest hrequest
  unfold handle
  rw [hclient]
  dsimp only
  rw [htokens]
  dsimp only
  rcases hledger : h.ledger.validate a server now with ⟨_ | _, ledger⟩
  · rfl
  · rw [hledger] at hrefused
    dsimp only
    cases hbody : Question.ofBody? (datagram.drop Token.headerSize) with
    | none => rfl
    | some q => simp only [hrefused rfl q hbody]

theorem handle_of_unread {datagram : Bytes} {fault : Wire.Fault} (h : Host) (now : Time)
    (a : SocketAddress) (hrequest : Token.isRequest datagram = false)
    (htokens : Packet.requestTokens datagram = .error fault) :
    h.handle now datagram a = (.rejected, [], h.ledger) := by
  obtain ⟨fault, hclient⟩ := Token.requestedClient_of_not_isRequest hrequest
  unfold handle
  rw [hclient]
  dsimp only
  rw [htokens]

theorem Receptive.answer_request (hh : Receptive h) (hnew : h.ledger.live? a now = none)
    (hroom : h.ledger.size < h.ledger.capacity) (client : Int32) :
    ∃ server h', h.answer now (Token.requested client).requestFrame a
        = ([Token.responseFrame client server], h') ∧
      h'.role = h.role ∧ Holding a server now h' := by
  obtain ⟨stats, hle, heq⟩ := hh.answer_eq now (Token.requested client).requestFrame a
  obtain ⟨server, hissue, hheld⟩ := Token.Ledger.issue_of_room hnew hroom client
  rw [handle_request, hissue] at heq
  exact ⟨server, _, heq, rfl, ⟨Nat.le_trans hh.dropped hle, hh.loses⟩, hheld⟩

namespace Holding

theorem answer_request (hh : Holding a server now h) (client : Int32) :
    ∃ h', h.answer now (Token.requested client).requestFrame a
        = ([Token.responseFrame client server], h') ∧ h'.role = h.role ∧ Holding a server now h' := by
  obtain ⟨stats, hle, heq⟩ := hh.answer_eq now (Token.requested client).requestFrame a
  obtain ⟨e, he, rfl⟩ := hh.held
  obtain ⟨hissue, hheld⟩ := Token.Ledger.issue_of_live he client
  rw [handle_request, hissue] at heq
  exact ⟨_, heq, rfl, ⟨Nat.le_trans hh.dropped hle, hh.loses⟩, hheld⟩

theorem answer_asked {q : Question} {payloads : List Bytes} (hh : Holding a server now h)
    (hpayloads : h.role.payloads? q = some payloads) (client : Int32) :
    ∃ h', h.answer now (Token.followUpHeader server client ++ q.marker) a
        = (payloads.map (Packet.response client server q.reply), h') ∧
      h'.role = h.role ∧ Holding a server now h' := by
  obtain ⟨stats, hle, heq⟩ := hh.answer_eq now (Token.followUpHeader server client ++ q.marker) a
  obtain ⟨e, he, rfl⟩ := hh.held
  obtain ⟨hvalid, hheld⟩ := Token.Ledger.validate_of_live he
  have hcarries := Packet.requestTokens_followUp e.server client q.marker
  have hrequest := (Packet.carries_iff_requestTokens.mpr ⟨client, hcarries⟩).isRequest_eq_false
  have hbody := Packet.ofBody?_followUp e.server client q
  rw [handle_of_asked hrequest hcarries hvalid hbody hpayloads] at heq
  exact ⟨_, heq, rfl, ⟨Nat.le_trans hh.dropped hle, hh.loses⟩, hheld⟩

end Holding

end Host
end ServerDiscovery
