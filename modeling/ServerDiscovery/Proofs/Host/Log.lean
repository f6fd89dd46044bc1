import ServerDiscovery.Proofs.Host
import ServerDiscovery.Proofs.Packet.Payload

/-! Runs of a host, with a receipt for each datagram that comes in: from where and when, whether it was
lost, and what was sent back for it. -/

namespace ServerDiscovery.Host

variable {h : Host} {a : SocketAddress} {now : Time} {datagram : Bytes}

def Role.Supports : Role → Question → Prop
  | .master _, q => q = .count ∨ q = .list
  | .game _, q => q = .info

theorem Role.supports_iff {role : Role} {q : Question} :
    role.Supports q ↔ ∃ payloads, role.payloads? q = some payloads := by
  cases role <;> cases q <;> simp [Supports, payloads?]

/-- How an answer begins: with the asker's number first and the host's own after it. -/
def replyHead (client server : Int32) : Bytes :=
  [0x21] ++ Bytes.ofInt32 client ++ Bytes.ofInt32 server ++ [0xff, 0xff, 0xff, 0xff]

/-- The datagrams that answer a question: a count in two bytes, a list in runs of 75 entries, each in
a datagram of its own, or the record. -/
def Role.Tells (client server : Int32) : Role → Question → List Bytes → Prop
  | .master servers, .count, replies =>
    let stated := min servers.length 65535
    replies = [replyHead client server ++ [0x73, 0x69, 0x7a, 0x32]
      ++ [UInt8.ofNat (stated / 256), UInt8.ofNat stated]]
  | .master servers, .list, replies =>
    replies.length = (servers.length + 74) / 75 ∧ ∀ i reply, replies[i]? = some reply →
      reply = replyHead client server ++ [0x6c, 0x69, 0x73, 0x32]
        ++ ((servers.drop (75 * i)).take 75).flatMap Endpoint.toEntry
  | .game record, .info, replies =>
    replies = [replyHead client server ++ [0x69, 0x6e, 0x66, 0x33, 0x00] ++ record.encode]
  | _, _, _ => False

theorem response_eq_replyHead (client server : Int32) (kind : ReplyKind) (letters payload : Bytes)
    (hmarker : kind.marker = [0xff, 0xff, 0xff, 0xff] ++ letters) :
    Packet.response client server kind payload = replyHead client server ++ letters ++ payload := by
  rw [Packet.response, hmarker]
  simp only [replyHead, Token.followUpHeader, Token.followUpByte, List.append_assoc,
    List.cons_append, List.nil_append]

theorem Role.tells_of_payloads {role : Role} {q : Question} {payloads : List Bytes}
    (hpayloads : role.payloads? q = some payloads) (client server : Int32) :
    role.Tells client server q (payloads.map (Packet.response client server q.reply)) := by
  have hhead := response_eq_replyHead client server q.reply
  cases role with
  | master servers =>
    cases q with
    | count =>
      obtain rfl := Option.some.inj hpayloads
      rw [Tells, List.map_singleton, hhead _ _ rfl, Packet.countPayload, Bytes.ofUInt16,
        Packet.toNat_statedCount]
      rfl
    | list =>
      obtain rfl := Option.some.inj hpayloads
      rw [Packet.listPayloads, List.map_map]
      refine ⟨?_, fun i reply hreply => ?_⟩
      · rw [List.length_map]
        exact Packet.length_chunks (show Packet.chunkSize ≠ 0 by decide) servers
      · rw [List.getElem?_map, Option.map_eq_some_iff] at hreply
        obtain ⟨piece, hpiece, rfl⟩ := hreply
        obtain ⟨-, rfl⟩ := Packet.getElem?_chunks hpiece
        exact hhead _ _ rfl
    | info => cases hpayloads
  | game record =>
    cases q with
    | count | list => cases hpayloads
    | info =>
      obtain rfl := Option.some.inj hpayloads
      rw [Tells, List.map_singleton, hhead _ _ rfl]

/-- All that a host can do with a datagram: the replies, and the host afterwards. -/
inductive Reaction (h : Host) (now : Time) (datagram : Bytes) (a : SocketAddress) :
    List Bytes × Host → Prop where
  | lost (hdrops : h.drops = true) :
    Reaction h now datagram a ([], { h with stats := h.stats.note .dropped })
  | requested {client : Int32} (hdrops : h.drops = false)
    (hrequest : Token.isRequest datagram = true) :
    Reaction h now datagram a
      (((h.ledger.issue a client now).1.map (Token.responseFrame client)).toList,
        { h with ledger := (h.ledger.issue a client now).2, stats := h.stats.note .token })
  | asked {server client : Int32} {q : Question} {payloads : List Bytes} (hdrops : h.drops = false)
    (htokens : Packet.requestTokens datagram = .ok (server, client))
    (hheld : h.ledger.held? a now = some server)
    (hbody : Question.ofBody? (datagram.drop Token.headerSize) = some q)
    (hpayloads : h.role.payloads? q = some payloads) :
    Reaction h now datagram a
      (payloads.map (Packet.response client server q.reply),
        { h with
          ledger := (h.ledger.validate a server now).2
          stats := h.stats.note (.asked q) })
  | refused {server client : Int32} (hdrops : h.drops = false)
    (htokens : Packet.requestTokens datagram = .ok (server, client))
    (hrefused : h.ledger.held? a now = some server →
      ∀ q, Question.ofBody? (datagram.drop Token.headerSize) = some q →
        h.role.payloads? q = none) :
    Reaction h now datagram a
      ([], { h with
        ledger := (h.ledger.validate a server now).2
        stats := h.stats.note .rejected })
  | unread (hdrops : h.drops = false) (hrequest : Token.isRequest datagram = false)
    (hcarries : ∀ server, ¬ Packet.Carries server datagram) :
    Reaction h now datagram a ([], { h with stats := h.stats.note .rejected })

theorem reaction (h : Host) (now : Time) (datagram : Bytes) (a : SocketAddress) :
    Reaction h now datagram a (h.answer now datagram a) := by
  unfold answer
  cases hdrops : h.drops with
  | true => exact .lost hdrops
  | false =>
    rw [if_neg Bool.false_ne_true]
    cases hrequest : Token.isRequest datagram with
    | true =>
      obtain ⟨client, hclient⟩ := Token.exists_requestedClient hrequest
      rw [handle_of_requestedClient h now a hclient]
      exact .requested hdrops hrequest
    | false =>
      cases htokens : Packet.requestTokens datagram with
      | error fault =>
        rw [handle_of_unread h now a hrequest htokens]
        refine .unread hdrops hrequest fun server hcarries => ?_
        obtain ⟨client, hok⟩ := Packet.carries_iff_requestTokens.mp hcarries
        rw [htokens] at hok
        cases hok
      | ok tokens =>
        obtain ⟨server, client⟩ := tokens
        have hvalid : (h.ledger.validate a server now).1 = true ↔ _ :=
          Token.Ledger.validate_eq_true_iff
        by_cases hasked : h.ledger.held? a now = some server ∧
            ∃ q payloads, Question.ofBody? (datagram.drop Token.headerSize) = some q ∧
              h.role.payloads? q = some payloads
        · obtain ⟨hheld, q, payloads, hbody, hpayloads⟩ := hasked
          rw [handle_of_asked hrequest htokens (hvalid.mpr hheld) hbody hpayloads]
          exact .asked hdrops htokens hheld hbody hpayloads
        · have hrefused : h.ledger.held? a now = some server →
              ∀ q, Question.ofBody? (datagram.drop Token.headerSize) = some q →
                h.role.payloads? q = none := by
            intro hheld q hbody
            cases hpayloads : h.role.payloads? q with
            | none => rfl
            | some payloads => exact absurd ⟨hheld, q, payloads, hbody, hpayloads⟩ hasked
          rw [handle_of_refused hrequest htokens fun hok => hrefused (hvalid.mp hok)]
          exact .refused hdrops htokens hrefused

theorem eq_some_of_replies {client client' server : Int32} {granted : Option Int32}
    (h : (granted.map (Token.responseFrame client)).toList = [Token.responseFrame client' server]) :
    granted = some server := by
  cases granted with
  | none => cases h
  | some server' =>
    obtain ⟨-, hserver⟩ := Token.responseFrame_inj (List.singleton_inj.mp h)
    rw [hserver]

inductive Event where
  | datagram (now : Time) (source : SocketAddress) (payload : Bytes)
  | purge (now : Time)

def Event.time : Event → Time
  | .datagram now _ _ => now
  | .purge now => now

structure Receipt where
  time : Time
  source : SocketAddress
  datagram : Bytes
  lost : Bool
  replies : List Bytes
  drawn : Bool
  deriving DecidableEq

def receipt (h : Host) (now : Time) (datagram : Bytes) (a : SocketAddress) : Receipt where
  time := now
  source := a
  datagram := datagram
  lost := h.drops
  replies := (h.answer now datagram a).1
  drawn := h.ledger.drawn < (h.answer now datagram a).2.ledger.drawn

def take (h : Host) : Event → List Receipt × Host
  | .datagram now source payload =>
    ([h.receipt now payload source], (h.answer now payload source).2)
  | .purge now => ([], h.purge now)

def run : Host → List Event → List Receipt × Host
  | h, [] => ([], h)
  | h, e :: es => ((h.take e).1 ++ ((h.take e).2.run es).1, ((h.take e).2.run es).2)

structure Sound (role : Role) (settings : Settings) (h : Host) : Prop where
  role : h.role = role
  lifetime : h.ledger.lifetime = settings.tokenLifetime
  ledger : h.ledger.Sound

variable {role : Role} {settings : Settings}

theorem Sound.new (role : Role) (settings : Settings) (supply : Token.Supply) :
    Sound role settings (.new role settings supply) :=
  ⟨rfl, rfl, .empty _ _ _⟩

theorem Sound.answer (hh : Sound role settings h) (now : Time) (datagram : Bytes)
    (a : SocketAddress) : Sound role settings (h.answer now datagram a).2 := by
  have hreaction := h.reaction now datagram a
  generalize h.answer now datagram a = after at hreaction
  cases hreaction with
  | lost | unread => exact ⟨hh.role, hh.lifetime, hh.ledger⟩
  | @requested client =>
    have hlifetime := (hh.ledger.settings_issue a client now).1
    exact ⟨hh.role, hlifetime.trans hh.lifetime, hh.ledger.issue a client now⟩
  | @asked server | @refused server =>
    have hlifetime := (Token.Ledger.settings_validate h.ledger a server now).1
    exact ⟨hh.role, hlifetime.trans hh.lifetime, hh.ledger.validate a server now⟩

theorem Sound.held?_answer_of_ne {b : SocketAddress} {t : Time} (hh : Sound role settings h)
    (hne : b ≠ a) (hle : now ≤ t) :
    (h.answer now datagram a).2.ledger.held? b t = h.ledger.held? b t := by
  have hreaction := h.reaction now datagram a
  generalize h.answer now datagram a = after at hreaction
  cases hreaction with
  | lost | unread => rfl
  | requested => exact hh.ledger.held?_issue_of_ne hne hle
  | asked | refused => exact Token.Ledger.held?_validate_of_ne hne

theorem Sound.take (hh : Sound role settings h) (event : Event) :
    Sound role settings (h.take event).2 := by
  cases event with
  | datagram now source payload => exact hh.answer now payload source
  | purge now => exact ⟨hh.role, hh.lifetime, hh.ledger.purge now⟩

theorem Sound.run (hh : Sound role settings h) (events : List Event) :
    Sound role settings (h.run events).2 := by
  induction events generalizing h with
  | nil => exact hh
  | cons event events ih => exact ih (hh.take event)

end ServerDiscovery.Host
