import ServerDiscovery.Proofs.Client.Loss
import ServerDiscovery.Proofs.Record.Codec

/-! The whole of a session's first question: the handshake, the token, the frame, and the record in
the reply. Over a lossy link it is answered with the first burst that is not lost in full. -/

namespace ServerDiscovery.Client

open Simulation

namespace Query

variable {α β σ : Type} [Transport σ] {s : Session} {a : SocketAddress} {k : σ}

theorem run_bind (q : Query α) (f : α → Query β) (s : Session) (k : σ) :
    ((q >>= f).dialogue s).run k = ((q.dialogue s).run k).bind fun p =>
      match p.1.1 with
      | .ok x => ((f x).dialogue p.1.2).run p.2
      | .error e => some ((.error e, p.1.2), p.2) := by
  rw [dialogue_bind]
  refine (Dialogue.run_bind _ _ _).trans (congrArg _ (funext fun p => ?_))
  obtain ⟨⟨r, s'⟩, k'⟩ := p
  cases r <;> rfl

theorem run_inquire (patience : Nat) (target : SocketAddress) (request : Bytes)
    (accept : Accept α) (s : Session) (k : σ) :
    ((inquire patience target request accept).dialogue s).run k =
      ((Client.inquire s.settings.pacing target request accept patience).run k).map fun p =>
        ((p.1, s), p.2) := by
  rw [inquire, dialogue_get_bind, dialogue_ofDialogue]
  apply (Dialogue.run_bind _ _ _).trans
  cases (Client.inquire s.settings.pacing target request accept patience).run k <;> rfl

theorem run_token (ha : s.target = some a)
    (hnone : (s.tokens.get (.ofSocket a) (Transport.now k)).1 = none) (patience : Nat) :
    ((token patience).dialogue s).run k =
      ((Client.inquire s.settings.pacing a (Token.requested (s.supply s.drawn)).requestFrame
        (acceptToken s.settings.tokenLifetime (.requested (s.supply s.drawn))) patience).run k).map
      fun p =>
        let s₁ := { s with
          drawn := s.drawn + 1
          tokens := (s.tokens.get (.ofSocket a) (Transport.now k)).2 }
        match p.1 with
        | .ok t => ((.ok t, { s₁ with
            tokens := s₁.tokens.insert (.ofSocket a) t (Transport.now p.2) }), p.2)
        | .error f => ((.error f, s₁), p.2) := by
  rw [token, dialogue_target_bind ha, dialogue_heldToken_bind, Dialogue.run, hnone]
  dsimp only
  rw [drawToken, dialogue_modifyGet_bind, dialogue_get_bind, run_bind, run_inquire]
  cases Dialogue.run (Client.inquire ..) k with
  | none => rfl
  | some p =>
    obtain ⟨r, k'⟩ := p
    cases r <;> rfl

theorem run_token_of_granted {k' : σ} {t : Token} {patience : Nat}
    (ha : s.target = some a) (hnone : (s.tokens.get (.ofSocket a) (Transport.now k)).1 = none)
    (hrun : (Client.inquire s.settings.pacing a (Token.requested (s.supply s.drawn)).requestFrame
      (acceptToken s.settings.tokenLifetime (.requested (s.supply s.drawn))) patience).run k =
        some (.ok t, k')) :
    ((token patience).dialogue s).run k = some ((.ok t, { s with
      drawn := s.drawn + 1
      tokens := (s.tokens.get (.ofSocket a) (Transport.now k)).2.insert (.ofSocket a) t
        (Transport.now k') }), k') := by
  rw [run_token ha hnone, hrun]
  rfl

theorem run_requestFrame {s' : Session} {k' : σ} {client server : Int32} {x : Time} {patience : Nat}
    (htoken : ((token patience).dialogue s).run k = some ((.ok (.issued client server x), s'), k'))
    (hx : Transport.now k' < x) (q : Question) :
    ((requestFrame patience q).dialogue s).run k =
      some ((.ok (Token.followUpHeader server client ++ q.marker), s'), k') := by
  have hvalid : (Token.issued client server x).isValid (Transport.now k') = true :=
    Token.isValid_iff.mpr ⟨x, rfl, hx⟩
  rw [requestFrame, run_bind, htoken]
  show Dialogue.run ((clock >>= _).dialogue s') k' = _
  rw [dialogue_clock_bind, Dialogue.run, dialogue_ofExcept,
    Packet.request_eq_ok_iff.mpr ⟨hvalid, rfl⟩]
  rfl

theorem run_asked_of_issued {s' : Session} {k' : σ} {client server : Int32} {x : Time}
    {patience : Nat}
    (htoken : ((token patience).dialogue s).run k = some ((.ok (.issued client server x), s'), k'))
    (hx : Transport.now k' < x) (q : Question) (target : SocketAddress) (accept : Accept α) :
    ((requestFrame patience q >>= fun frame => inquire patience target frame accept).dialogue s).run
        k = ((Client.inquire s'.settings.pacing target (Token.followUpHeader server client ++
          q.marker) accept patience).run k').map fun p => ((p.1, s'), p.2) := by
  rw [run_bind, run_requestFrame htoken hx]
  exact run_inquire ..

theorem run_record_of_issued {s' : Session} {k' : σ} {client server : Int32} {x : Time}
    {patience : Nat} (ha : s.target = some a)
    (htoken : ((token patience).dialogue s).run k = some ((.ok (.issued client server x), s'), k'))
    (hx : Transport.now k' < x) :
    ((record patience).dialogue s).run k =
      ((Client.inquire s'.settings.pacing a (Token.followUpHeader server client ++
        Question.info.marker) acceptRecord patience).run k').map fun p => ((p.1, s'), p.2) := by
  rw [record, dialogue_target_bind ha]
  exact run_asked_of_issued htoken hx .info a acceptRecord

theorem run_record_of_refused {s' : Session} {k' : σ} {f : Failure} {patience : Nat}
    (ha : s.target = some a)
    (htoken : ((token patience).dialogue s).run k = some ((.error f, s'), k')) :
    ((record patience).dialogue s).run k = some ((.error f, s'), k') := by
  rw [record, dialogue_target_bind ha, run_bind, requestFrame, run_bind, htoken]
  rfl

theorem acceptRecord_response {r : ServerRecord} (hr : r.Writable)
    (hfits : 18 + r.encode.length ≤ Packet.maxSize) (client server : Int32) (now : Time)
    (source : SocketAddress) :
    acceptRecord now ((Packet.response client server .info r.encode).take Packet.maxSize) source =
      .ok { r.shown with address := (Endpoint.ofSocket source).toString } := by
  have hplayers := r.length_players_le
  have hparse := ServerRecord.parse_encode hr (by simp [Packet.maxSize] at hfits; omega) []
    (Endpoint.ofSocket source).toString
  rw [List.append_nil] at hparse
  unfold acceptRecord
  rw [Packet.expectResponse_take_response client server (by decide) hfits]
  show wire (ServerRecord.parse r.encode _) = _
  rw [hparse]
  rfl

section Record

variable {r : ServerRecord} {settings : Settings} {config : Host.Settings} {patience : Nat}

theorem lost_new (now : Time) (client : SocketAddress) (host : Host) (hstats : host.stats = {}) :
    Inquiry.Lost host 0 (Link.new now client host) := by
  refine ⟨rfl, {}, rfl, ?_⟩
  rw [← hstats]
  rfl

theorem log2_burst (k : Nat) :
    2 ^ Nat.log2 (k + 1) - 1 ≤ k ∧ k < 2 ^ (Nat.log2 (k + 1) + 1) - 1 := by
  have hle := Nat.log2_self_le (Nat.succ_ne_zero k)
  have hlt := Nat.lt_log2_self (n := k + 1)
  rw [Nat.succ_eq_add_one] at hle
  exact ⟨Nat.sub_le_of_le_add hle, Nat.lt_sub_of_add_lt hlt⟩

theorem log2_le (k : Nat) : Nat.log2 (k + 1) ≤ k := by
  have hfew := Nat.lt_two_pow_self (n := Nat.log2 (k + 1))
  have hbefore := (log2_burst k).1
  omega

abbrev delay (settings : Settings) (losses : Nat) : Time :=
  Inquiry.elapsed settings.pacing (Nat.log2 (losses + 1))

theorem run_record_answered (hr : r.Writable) (hfits : 18 + r.encode.length ≤ Packet.maxSize)
    (hlifetime : Token.expiryMargin < settings.tokenLifetime) (hroom : 1 ≤ config.maxTokens)
    (hloses : ∀ n, config.loses n = false) (hmost : config.dropFirst ≤ Inquiry.maxBurst)
    (hpatience : config.dropFirst < patience)
    (htime : delay settings config.dropFirst < settings.pacing.budget)
    (supply hostSupply : Token.Supply) (client target : SocketAddress) (now : Time) :
    ∃ s' l', ((record patience).dialogue ((Session.new settings supply).aim target)).run
        (Link.new now client (.new (.game r) config hostSupply)) =
      some ((.ok { r.shown with address := (Endpoint.ofSocket target).toString }, s'), l') ∧
        l'.now = now + delay settings config.dropFirst := by
  obtain ⟨hbefore, hafter⟩ := log2_burst config.dropFirst
  let host := Host.new (.game r) config hostSupply
  have hnew : ∀ now, host.ledger.live? client now = none := fun _ => rfl
  have hempty : host.ledger.size < host.ledger.capacity := hroom
  have hattempts : Nat.log2 (config.dropFirst + 1) < patience :=
    Nat.lt_of_le_of_lt (log2_le _) hpatience
  obtain ⟨server, more, l₁, hrun, hnow, hrole, hholding, hreplies, hmore⟩ := Inquiry.run_granted
    hloses hnew hempty (lost_new now client host rfl) rfl hbefore hafter hmost htime hattempts target
    (supply 0) settings.tokenLifetime
  have hvalid : l₁.now < now + delay settings config.dropFirst
      + (settings.tokenLifetime - Token.expiryMargin) := by
    rw [hnow]
    exact Nat.lt_add_of_pos_right (Nat.sub_pos_of_lt hlifetime)
  have haccept := acceptRecord_response hr hfits server (supply 0) l₁.now target
  -- The grants that are left of the burst cost no time, so the record comes when the token does.
  obtain ⟨l₂, hrun₂, hnow₂⟩ := Inquiry.run_asked (Nat.ne_zero_of_lt htime) hrole hholding hreplies
    haccept (Nat.lt_of_le_of_lt hmore hpatience)
  have htarget : ((Session.new settings supply).aim target).target = some target := rfl
  have hgranted := run_token_of_granted htarget rfl hrun
  have hrecord := (run_record_of_issued htarget hgranted hvalid).trans
    (congrArg (Option.map _) hrun₂)
  exact ⟨_, l₂, hrecord, hnow₂.trans hnow⟩

theorem run_record_unanswered (hmost : config.dropFirst ≤ Inquiry.maxBurst)
    (hpatience : config.dropFirst < patience)
    (htime : settings.pacing.budget ≤ delay settings config.dropFirst)
    (supply hostSupply : Token.Supply) (client target : SocketAddress) (now : Time) :
    ∃ s' l', ((record patience).dialogue ((Session.new settings supply).aim target)).run
        (Link.new now client (.new (.game r) config hostSupply)) =
      some ((.error .timeout, s'), l') ∧ l'.now = now + settings.pacing.budget := by
  let host := Host.new (.game r) config hostSupply
  have hattempts : Nat.log2 (config.dropFirst + 1) ≤ patience :=
    Nat.le_trans (log2_le _) (Nat.le_of_lt hpatience)
  obtain ⟨l', hrun, hnow⟩ := Inquiry.run_all_lost
    (acceptToken settings.tokenLifetime (.requested (supply 0))) (log2_burst config.dropFirst).1
    hmost (lost_new now client host rfl) rfl htime hattempts target
    (Token.requested (supply 0)).requestFrame
  have htarget : ((Session.new settings supply).aim target).target = some target := rfl
  have hrefused := (run_token htarget rfl patience).trans (congrArg (Option.map _) hrun)
  exact ⟨_, l', run_record_of_refused htarget hrefused, hnow⟩

theorem statedClients_of_fits (hfits : 18 + r.encode.length ≤ Packet.maxSize) :
    r.statedClients = Int32.ofNat r.players.length := by
  have hplayers := r.length_players_le
  unfold ServerRecord.statedClients
  rw [Nat.min_eq_left]
  rw [Packet.maxSize] at hfits
  omega

/-- The first question of a session to a game server that loses the first datagrams: the answer
comes with the first burst that is not lost in full, unless the time is up by then. The host counts
what it is to lose in a machine word, as the client does its copies. -/
theorem run_record_over_loss (hr : r.Writable) (hfits : 18 + r.encode.length ≤ Packet.maxSize)
    (hlifetime : Token.expiryMargin < settings.tokenLifetime) (hroom : 1 ≤ config.maxTokens)
    (hloses : ∀ n, config.loses n = false) (hmost : config.dropFirst ≤ Inquiry.maxBurst)
    (hpatience : config.dropFirst < patience) (supply hostSupply : Token.Supply)
    (client target : SocketAddress) (now : Time) :
    let late := settings.minTimeout * (2 ^ Nat.log2 (config.dropFirst + 1) - 1)
    let limit := max settings.readTimeout settings.minTimeout
    ∃ s' l', ((record patience).dialogue ((Session.new settings supply).aim target)).run
        (Link.new now client (.new (.game r) config hostSupply)) =
      some ((if late < limit
        then .ok { r.shown with
          address := (Endpoint.ofSocket target).toString
          numClients := Int32.ofNat r.players.length }
        else .error .timeout, s'), l') ∧ l'.now = now + min late limit := by
  intro late limit
  rw [← statedClients_of_fits hfits]
  split_ifs with hlate
  · obtain ⟨s', l', hrun, hnow⟩ := run_record_answered hr hfits hlifetime hroom hloses hmost
      hpatience hlate supply hostSupply client target now
    rw [Nat.min_eq_left (Nat.le_of_lt hlate)]
    exact ⟨s', l', hrun, hnow⟩
  · have htime := Nat.le_of_not_lt hlate
    obtain ⟨s', l', hrun, hnow⟩ := run_record_unanswered (r := r) hmost hpatience htime supply
      hostSupply client target now
    rw [Nat.min_eq_right htime]
    exact ⟨s', l', hrun, hnow⟩

def frontier : ServerRecord where
  address := ""
  version := "0.7.5"
  name := "front\tier"
  hostname := ""
  map := "dm1"
  gameType := "DM"
  flags := 0
  skillLevel := 1
  numPlayers := 1
  maxPlayers := 8
  numClients := 0
  maxClients := 16
  players := [⟨"ann\n", "", 40, 7, 0⟩]

theorem writable_frontier : frontier.Writable where
  version := by decide
  name := by decide
  hostname := by decide
  map := by decide
  gameType := by decide
  players := by decide

theorem run_record_after_four_lost : ∃ s' l',
    ((record 5).dialogue ((Session.new {} fun _ => 7).aim (.v4 ⟨10, 0, 0, 1⟩ 8303))).run
        (Link.new 0 (.v4 ⟨10, 0, 0, 2⟩ 40000)
          (.new (.game frontier) { dropFirst := 4 } fun _ => 9)) =
      some ((.ok { frontier with
        address := "10.0.0.1:8303"
        name := "front ier"
        numClients := 1
        players := [⟨"ann ", "", 40, 7, 0⟩] }, s'), l') ∧ l'.now = 105 := by
  have hshown : { frontier.shown with
      address := (Endpoint.ofSocket (.v4 ⟨10, 0, 0, 1⟩ 8303)).toString
      numClients := Int32.ofNat frontier.players.length } = { frontier with
        address := "10.0.0.1:8303"
        name := "front ier"
        numClients := 1
        players := [⟨"ann ", "", 40, 7, 0⟩] } := by decide +kernel
  obtain ⟨s', l', hrun, hnow⟩ := @run_record_over_loss frontier {} { dropFirst := 4 } 5
    writable_frontier (by decide +kernel) (by decide) (by decide) (fun _ => rfl) (by decide)
    (by decide) (fun _ => 7) (fun _ => 9) (.v4 ⟨10, 0, 0, 2⟩ 40000) (.v4 ⟨10, 0, 0, 1⟩ 8303) 0
  rw [if_pos (by decide), hshown] at hrun
  exact ⟨s', l', hrun, hnow⟩

end Record

end Query
end ServerDiscovery.Client
