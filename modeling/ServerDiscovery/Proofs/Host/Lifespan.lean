import ServerDiscovery.Proofs.Host.Log

/-! A client drops a token before the host that issued it does. Whatever else the host hears in
between, the token of a follow-up is good when it arrives, if the two datagrams together were not
under way for longer than the margin. -/

namespace ServerDiscovery

theorem Packet.response_ne_responseFrame (client server client' server' : Int32) (kind : ReplyKind)
    (payload : Bytes) :
    Packet.response client server kind payload ≠ Token.responseFrame client' server' := by
  intro h
  have hfirst := congrArg List.head? h
  simp [Packet.response, Token.followUpHeader, Token.responseFrame, Token.followUpByte,
    Token.controlByte] at hfirst

theorem Token.ofResponse_responseFrame (client server : Int32) (lifetime now : Time) :
    Token.ofResponse (Token.responseFrame client server) lifetime now =
      .ok (.issued client server (now + (lifetime - expiryMargin))) := by
  obtain ⟨-, hclient, hserver⟩ := Token.responseFrame_fields client server
  unfold Token.ofResponse
  rw [hclient, hserver]

theorem Token.arrived_le {lifetime honoured granted accepted built arrived : Nat}
    (hlifetime : lifetime ≤ honoured) (hkept : accepted ≤ built)
    (hfresh : built < accepted + (lifetime - expiryMargin))
    (hmargin : (accepted - granted) + (arrived - built) ≤ expiryMargin) :
    arrived ≤ granted + honoured := by
  unfold expiryMargin at hfresh hmargin
  omega

namespace Host

variable {role : Role} {settings : Settings} {h : Host} {a b : SocketAddress} {server : Int32}
  {now t : Time} {datagram : Bytes}

theorem Sound.held?_of_granted {client : Int32} (hh : Sound role settings h)
    (hgranted : (h.answer now datagram a).1 = [Token.responseFrame client server]) (hle : now ≤ t)
    (hspan : t ≤ now + settings.tokenLifetime) :
    (h.answer now datagram a).2.ledger.held? a t = some server := by
  have hreaction := h.reaction now datagram a
  generalize h.answer now datagram a = after at hreaction hgranted ⊢
  cases hreaction with
  | lost | refused | unread => cases hgranted
  | @requested client' =>
    have hheld := hh.ledger.held?_issue a client' hle
    rw [hh.lifetime, if_pos hspan] at hheld
    exact hheld.trans (eq_some_of_replies hgranted)
  | @asked server' client' q payloads =>
    obtain ⟨payload, -, hframe⟩ := List.map_eq_singleton_iff.mp hgranted
    exact absurd hframe
      (Packet.response_ne_responseFrame client' server' client server q.reply payload)

theorem Sound.held?_answer (hh : Sound role settings h) (hheld : h.ledger.held? b t = some server)
    (hle : now ≤ t) (hspan : t ≤ now + settings.tokenLifetime) :
    (h.answer now datagram a).2.ledger.held? b t = some server := by
  by_cases hb : b = a
  · subst hb
    have hnow := Token.Ledger.held?_of_le hheld hle
    have hreaction := h.reaction now datagram b
    generalize h.answer now datagram b = after at hreaction ⊢
    cases hreaction with
    | lost | unread => exact hheld
    | @requested client =>
      have hissued := hh.ledger.held?_issue b client hle
      rw [hh.lifetime, if_pos hspan, Token.Ledger.issue_of_held hnow] at hissued
      exact hissued
    | @asked server' | @refused server' =>
      by_cases hserver : server' = server
      · subst hserver
        have hvalidated := Token.Ledger.held?_validate hnow t
        rw [hh.lifetime, if_pos hspan] at hvalidated
        exact hvalidated
      · have hother : h.ledger.held? b now ≠ some server' := fun hsome =>
          hserver (Option.some.inj (hsome.symm.trans hnow))
        change (h.ledger.validate b server' now).2.held? b t = some server
        rwa [Token.Ledger.validate_of_not_held hother]
  · rwa [hh.held?_answer_of_ne hb hle]

theorem Sound.held?_take (hh : Sound role settings h) (hheld : h.ledger.held? a t = some server)
    (event : Event) (hle : event.time ≤ t) (hspan : t ≤ event.time + settings.tokenLifetime) :
    (h.take event).2.ledger.held? a t = some server := by
  cases event with
  | datagram now source payload => exact hh.held?_answer hheld hle hspan
  | purge now => exact (hh.ledger.held?_purge a hle).trans hheld

theorem Sound.held?_run {events : List Event} (hh : Sound role settings h)
    (hheld : h.ledger.held? a t = some server)
    (hspan : ∀ event ∈ events, event.time ≤ t ∧ t ≤ event.time + settings.tokenLifetime) :
    (h.run events).2.ledger.held? a t = some server := by
  induction events generalizing h with
  | nil => exact hheld
  | cons event events ih =>
    obtain ⟨hle, hlifetime⟩ := hspan event (List.mem_cons_self ..)
    exact ih (hh.take event) (hh.held?_take hheld event hle hlifetime)
      fun event' hmem => hspan event' (List.mem_cons_of_mem event hmem)

/-- A token is granted at some instant, accepted at `accepted` by a client with a lifetime no longer
than the host's, and still valid at `built` when a follow-up is built with it. Then the follow-up
names the token, and the host finds it good at `arrived`, whatever happened to the host before and
since. -/
theorem validates_followUp (role : Role) (settings : Settings) (supply : Token.Supply)
    (before between : List Event) (datagram : Bytes) (a : SocketAddress) (client server : Int32)
    (token : Token) (q : Question) (followUp : Bytes)
    (lifetime granted accepted built arrived : Time)
    (htimes : (granted :: between.map Event.time ++ [arrived]).Pairwise (· ≤ ·))
    (hgranted : (((Host.new role settings supply).run before).2.answer granted datagram a).1
      = [Token.responseFrame client server])
    (hlifetime : lifetime ≤ settings.tokenLifetime)
    (haccepted : Token.ofResponse (Token.responseFrame client server) lifetime accepted = .ok token)
    (hkept : accepted ≤ built) (hbuilt : Packet.request token q built = .ok followUp)
    (hmargin : (accepted - granted) + (arrived - built) ≤ Token.expiryMargin) :
    Packet.requestTokens followUp = .ok (server, client) ∧
      ((((((Host.new role settings supply).run before).2.answer granted datagram a).2.run
        between).2.ledger.validate a server arrived).1 = true) := by
  have hbefore := (Sound.new role settings supply).run before
  rw [Token.ofResponse_responseFrame, Except.ok.injEq] at haccepted
  subst haccepted
  obtain ⟨hvalid, rfl⟩ := Packet.request_eq_ok_iff.mp hbuilt
  obtain ⟨expires, hexpires, hfresh⟩ := Token.isValid_iff.mp hvalid
  obtain rfl := Option.some.inj hexpires
  have harrived : arrived ≤ granted + settings.tokenLifetime :=
    Token.arrived_le hlifetime hkept hfresh hmargin
  obtain ⟨hlater, hrest⟩ := List.pairwise_cons.mp htimes
  have hends := (List.pairwise_append.mp hrest).2.2
  have hgranted' := hbefore.held?_of_granted hgranted
    (hlater arrived (List.mem_append_right _ (List.mem_singleton_self arrived))) harrived
  have hheld := (hbefore.answer granted datagram a).held?_run hgranted' fun event hmem => by
    have htime := List.mem_map_of_mem (f := Event.time) hmem
    have hgap : granted ≤ event.time := hlater event.time (List.mem_append_left _ htime)
    exact ⟨hends event.time htime arrived (List.mem_singleton_self arrived),
      Nat.le_trans harrived (Nat.add_le_add_right hgap _)⟩
  exact ⟨Packet.requestTokens_followUp server client q.marker,
    Token.Ledger.validate_eq_true_iff.mpr hheld⟩

def crowd : List Event :=
  let request : Bytes := [0x04, 0, 0, 0, 0, 0, 0, 6, 0, 0, 0, 2]
  [.datagram 600 (.v4 ⟨10, 0, 0, 2⟩ 40000) request,
    .datagram 700 (.v4 ⟨10, 0, 0, 2⟩ 40000) (Token.followUpHeader 7 1 ++ Question.count.marker),
    .datagram 800 (.v4 ⟨10, 0, 0, 1⟩ 40000) (Token.followUpHeader 8 1 ++ Question.count.marker),
    .purge 16050]

theorem validates_followUp_at_margin :
    let host := Host.new (.master []) { tokenLifetime := 16000, maxTokens := 1 } fun _ => 7
    let holder := SocketAddress.v4 ⟨10, 0, 0, 1⟩ 40000
    let granted := host.answer 100 [0x04, 0, 0, 0, 0, 0, 0, 5, 0, 0, 0, 1] holder
    ((granted.2.run crowd).2.ledger.validate holder 7 16099).1 = true := by
  intro host holder granted
  exact (validates_followUp (.master []) { tokenLifetime := 16000, maxTokens := 1 } (fun _ => 7) []
    crowd [0x04, 0, 0, 0, 0, 0, 0, 5, 0, 0, 0, 1] holder 1 7 (.issued 1 7 15500) .count
    (Token.followUpHeader 7 1 ++ Question.count.marker) 16000 100 500 15499 16099 (by decide)
    (by decide +kernel) (by decide) (by decide) (by decide) (by decide) (by decide)).2

end Host
end ServerDiscovery
