import ServerDiscovery.Proofs.Address.Endpoint
import ServerDiscovery.Proofs.Client.Concluding
import ServerDiscovery.Proofs.Client.Gather
import ServerDiscovery.Proofs.Client.LossyRecord
import ServerDiscovery.Proofs.Packet.Payload

/-! The list that a session reads from a master which answers at once. The count that was stated
says how many pieces of the list are taken in, so what is read are the first so many pieces. -/

namespace ServerDiscovery.Client

open Simulation

variable {l : Link} {a : SocketAddress} {client server : Int32}

theorem Inquiry.run_replied {α : Type} {pacing : Pacing} {request first : Bytes} {more : List Bytes}
    {host : Host} {accept : Accept α} {x : α} (hbudget : pacing.budget ≠ 0)
    (hreplies : l.replies = [])
    (hanswer : l.host.answer l.now request l.client = (first :: more, host))
    (haccept : accept l.now (first.take Packet.maxSize) a = .ok x) (patience : Nat) :
    ∃ deadline, (inquire pacing a request accept (patience + 1)).run l = some (.ok x,
      { l with deadline, host, replies := more.map fun payload => (payload, a) }) := by
  let y := start a request pacing l.now
  have hleft : y.left l.now ≠ 0 := by
    simpa [y, left, start] using hbudget
  have hfrom : y.isFromTarget a = true := decide_eq_true rfl
  generalize hd : l.now + min y.window (y.left l.now) = d
  have hsend : Link.send { l with deadline := d } a request 1 = { l with
      deadline := d
      host
      replies := (first, a) :: more.map fun payload => (payload, a) } := by
    rw [Link.send_succ, Link.deliver_eq, hanswer, hreplies]
    rfl
  have hreceive := Link.receive_cons (l := { l with
    deadline := d
    host
    replies := (first, a) :: more.map fun payload => (payload, a) }) rfl
  have hsettle := run_await_of_settle hreceive (judge_datagram hfrom haccept) patience
  refine ⟨d, ?_⟩
  show (y.attempt (await accept (patience + 1) y)).run l = _
  rw [run_attempt, if_neg hleft, hd]
  show (await accept (patience + 1) y).run (Link.send _ a request 1) = _
  rw [hsend]
  exact hsettle

namespace Query

/-! ### What the replies of a master are taken for -/

theorem acceptCount_response (servers : Nat) (client server : Int32) (now : Time)
    (source : SocketAddress) :
    acceptCount now ((Packet.response client server .count
      (Packet.countPayload (Packet.statedCount servers))).take Packet.maxSize) source =
        .ok (Packet.readCount servers) := by
  have hfits : 18 + (Packet.countPayload (Packet.statedCount servers)).length ≤ Packet.maxSize := by
    show 18 + 2 ≤ 1500
    decide
  unfold acceptCount
  rw [Packet.expectResponse_take_response client server (by decide) hfits]
  show wire (Packet.parseCount (Packet.countPayload (Packet.statedCount servers))) = _
  rw [Packet.parseCount_countPayload]
  rfl

theorem expectResponse_piece (client server : Int32) {servers : List Endpoint}
    (hservers : servers.length ≤ Packet.chunkSize) :
    Packet.expectResponse ((Packet.response client server .list
      (servers.flatMap Endpoint.toEntry)).take Packet.maxSize) .list =
        .ok (servers.flatMap Endpoint.toEntry) := by
  have hlen := Packet.length_flatMap_toEntry servers
  apply Packet.expectResponse_take_response client server (by decide)
  rw [hlen, Endpoint.entrySize, Packet.maxSize]
  rw [Packet.chunkSize] at hservers
  omega

theorem acceptList_response (client server : Int32) {servers : List Endpoint}
    (hservers : servers.length ≤ Packet.chunkSize) (now : Time) (source : SocketAddress) :
    acceptList now ((Packet.response client server .list
      (servers.flatMap Endpoint.toEntry)).take Packet.maxSize) source = .ok servers := by
  unfold acceptList
  rw [expectResponse_piece client server hservers]
  show Except.ok (Packet.parseList _) = _
  rw [Packet.parseList_flatMap_toEntry]

theorem unseen_eq_self {known fresh : List Endpoint} (h : (known ++ fresh).Nodup) :
    unseen known fresh = fresh := by
  have hknown : known.Nodup := h.of_append_left
  have happend := distinct_append_unseen known fresh
  rw [Endpoint.distinct_eq_self hknown, Endpoint.distinct_eq_self h] at happend
  exact List.append_cancel_left happend

/-! ### The pieces that are waiting -/

def listReplies (a : SocketAddress) (client server : Int32) (servers : List Endpoint) :
    List (Bytes × SocketAddress) :=
  ((Packet.listPayloads servers).map (Packet.response client server .list)).map
    fun payload => (payload, a)

theorem listReplies_of_ne_nil {servers : List Endpoint} (hservers : servers ≠ []) :
    listReplies a client server servers =
      (Packet.response client server .list
        ((servers.take Packet.chunkSize).flatMap Endpoint.toEntry), a) ::
          listReplies a client server (servers.drop Packet.chunkSize) := by
  unfold listReplies
  rw [Packet.listPayloads_of_ne_nil hservers, List.map_cons, List.map_cons]

theorem run_gather_piece {expected patience chunks : Nat} {known rest : List Endpoint}
    (hchunks : chunks < expected) (hrest : rest ≠ []) (hnodup : (known ++ rest).Nodup)
    (hreplies : l.replies = listReplies a client server rest) :
    (gather (.ofSocket a) expected (patience + 1) chunks known).run l =
      (gather (.ofSocket a) expected patience (chunks + 1)
        (known ++ rest.take Packet.chunkSize)).run
          { l with replies := listReplies a client server (rest.drop Packet.chunkSize) } := by
  let piece := rest.take Packet.chunkSize
  have hreceive : Transport.receive l = _ :=
    Link.receive_cons (hreplies.trans (listReplies_of_ne_nil hrest))
  have hpayload := expectResponse_piece client server (List.length_take_le Packet.chunkSize rest)
  have hpiece : piece ≠ [] := by
    simpa [piece, Packet.chunkSize] using hrest
  have hprefix : (known ++ piece).Nodup :=
    hnodup.sublist (List.Sublist.append_left (List.take_sublist ..) known)
  have hfresh : unseen known piece = piece := unseen_eq_self hprefix
  rw [gather, if_neg (Nat.not_le.mpr hchunks), Dialogue.run, hreceive]
  simp only [↓reduceIte, hpayload, Packet.parseList_flatMap_toEntry]
  show Dialogue.run (gather _ _ _ (if (unseen known piece).isEmpty then _ else _)
    (known ++ unseen known piece)) _ = _
  rw [hfresh, if_neg]
  simpa using hpiece

theorem run_gather {expected patience chunks : Nat} {known rest : List Endpoint}
    (hpatience : expected ≤ patience + chunks)
    (hthere : Packet.chunkSize * (expected - chunks) < rest.length + Packet.chunkSize)
    (hnodup : (known ++ rest).Nodup) (hreplies : l.replies = listReplies a client server rest) :
    ∃ l', (gather (.ofSocket a) expected patience chunks known).run l =
      some (.ok (known ++ rest.take (Packet.chunkSize * (expected - chunks))), l') ∧
        l'.now = l.now := by
  -- Each piece moves from those that are waiting to what is known, so the two together stay.
  induction patience generalizing chunks known rest l with
  | zero =>
    have hdone : expected ≤ chunks := by simpa using hpatience
    refine ⟨l, ?_, rfl⟩
    rw [gather, if_pos hdone, Nat.sub_eq_zero_of_le hdone]
    simp [Dialogue.run]
  | succ patience ih =>
    rcases Nat.lt_or_ge chunks expected with hmore | hdone
    · have hstep : expected - chunks = expected - (chunks + 1) + 1 := by omega
      rw [hstep, Nat.mul_succ] at hthere
      have hrest : rest ≠ [] := by
        rintro rfl
        rw [List.length_nil, Nat.zero_add] at hthere
        exact Nat.not_lt.mpr (Nat.le_add_left ..) hthere
      have hsplit : known ++ rest.take Packet.chunkSize ++ rest.drop Packet.chunkSize
          = known ++ rest := by
        rw [List.append_assoc, List.take_append_drop]
      have htake : rest.take (Packet.chunkSize * (expected - chunks)) =
          rest.take Packet.chunkSize ++ (rest.drop Packet.chunkSize).take
            (Packet.chunkSize * (expected - (chunks + 1))) := by
        rw [hstep, Nat.mul_succ, Nat.add_comm _ Packet.chunkSize, List.take_add]
      have hlater : Packet.chunkSize * (expected - (chunks + 1)) <
          (rest.drop Packet.chunkSize).length + Packet.chunkSize := by
        rw [List.length_drop]
        omega
      have hnext : expected ≤ patience + (chunks + 1) := by omega
      have hnodup' : (known ++ rest.take Packet.chunkSize ++ rest.drop Packet.chunkSize).Nodup :=
        hsplit.symm ▸ hnodup
      let l₁ : Link := { l with
        replies := listReplies a client server (rest.drop Packet.chunkSize) }
      obtain ⟨l', hrun, hnow⟩ := ih (l := l₁) hnext hlater hnodup' rfl
      refine ⟨l', ?_, hnow⟩
      rw [run_gather_piece hmore hrest hnodup hreplies, hrun, htake, List.append_assoc]
    · refine ⟨l, ?_, rfl⟩
      rw [gather, if_pos hdone, Nat.sub_eq_zero_of_le hdone]
      simp [Dialogue.run]

/-! ### The stages of the operation -/

def listing (a : SocketAddress) (expected patience : Nat) : Query (List Endpoint) := do
  let frame ← requestFrame patience .list
  let started ← clock
  let first ← inquire patience a frame acceptList
  let deadline := started + (← get).settings.pacing.budget
  ofDialogue <| .readUntil deadline <|
    gather (.ofSocket a) expected patience 1 (unseen [] first)

theorem run_servers_of_count {σ : Type} [Transport σ] {s s' : Session} {k k' : σ} {c patience : Nat}
    (ha : s.target = some a)
    (hcount : ((count patience).dialogue s).run k = some ((.ok c, s'), k')) :
    ((servers patience).dialogue s).run k =
      if c = 0 then some ((.ok [], s'), k')
      else ((listing a (expectedChunks c) patience).dialogue s').run k' := by
  have hservers : (servers patience).dialogue s = (Query.target >>= fun a => count patience >>=
      fun c => if c = 0 then pure [] else listing a (expectedChunks c) patience).dialogue s := rfl
  rw [hservers, dialogue_target_bind ha, run_bind, hcount]
  show Dialogue.run ((if c = 0 then _ else _ : Query (List Endpoint)).dialogue s') k' = _
  split_ifs <;> rfl

theorem Concludes.servers_of_count {σ : Type} [Transport σ] {s s₁ s' : Session} {k k₁ k' : σ}
    {c : Nat} {r : Except Failure (List Endpoint)} (ha : s.target = some a)
    (hcount : Concludes count s k (.ok c) s₁ k₁) (hc : c ≠ 0)
    (h : Concludes (listing a (expectedChunks c)) s₁ k₁ r s' k') :
    Concludes servers s k r s' k' := by
  have hlist : Concludes (fun patience =>
      if c = 0 then pure [] else listing a (expectedChunks c) patience) s₁ k₁ r s' k' := by
    simpa only [if_neg hc] using h
  exact .target_bind ha (.bind hcount hlist)

theorem run_until {α σ : Type} [Transport σ] (started : Time) (d : Dialogue (Except Failure α))
    (s : Session) (k : σ) :
    ((do
        let deadline := started + (← get).settings.pacing.budget
        ofDialogue (.readUntil deadline d) : Query α).dialogue s).run k =
      (d.run (Transport.readUntil (started + s.settings.pacing.budget) k)).map fun p =>
        ((p.1, s), p.2) := by
  rw [dialogue_get_bind, dialogue_ofDialogue]
  apply (Dialogue.run_bind _ _ _).trans
  rw [Dialogue.run]
  cases d.run (Transport.readUntil (started + s.settings.pacing.budget) k) <;> rfl

structure Welcoming (servers : List Endpoint) (l : Link) : Prop where
  role : l.host.role = .master servers
  receptive : l.host.Receptive
  unknown : l.host.ledger.live? l.client l.now = none
  room : l.host.ledger.size < l.host.ledger.capacity
  replies : l.replies = []

structure Admitted (settings : Settings) (a : SocketAddress) (client server : Int32)
    (expires : Time) (s : Session) : Prop where
  settings : s.settings = settings
  target : s.target = some a
  held : s.tokens.token? (.ofSocket a) = some (.issued client server expires)

structure Attending (servers : List Endpoint) (server : Int32) (l : Link) : Prop where
  role : l.host.role = .master servers
  holding : l.host.Holding l.client server l.now
  replies : l.replies = []

section Stages

variable {settings : Settings} {servers : List Endpoint} {expires : Time} {s : Session}

theorem run_token_of_held {σ : Type} [Transport σ] {k : σ} {t : Token} (ha : s.target = some a)
    (hheld : (s.tokens.get (.ofSocket a) (Transport.now k)).1 = some t) (patience : Nat) :
    ((token patience).dialogue s).run k = some ((.ok t,
      { s with tokens := (s.tokens.get (.ofSocket a) (Transport.now k)).2 }), k) := by
  rw [token, dialogue_target_bind ha, dialogue_heldToken_bind, Dialogue.run, hheld]
  rfl

theorem Admitted.granted {now : Time} (ha : s.target = some a) (hexpires : now < expires)
    (drawn : Nat) (tokens : Token.Store) :
    Admitted s.settings a client server expires { s with
      drawn
      tokens := tokens.insert (.ofSocket a) (.issued client server expires) now } :=
  ⟨rfl, ha, Token.Store.token?_insert_self (Token.expires?_issued ..) hexpires⟩

theorem Admitted.run_token (hs : Admitted settings a client server expires s)
    (hexpires : l.now < expires) (patience : Nat) :
    ∃ s', ((Query.token patience).dialogue s).run l =
        some ((.ok (.issued client server expires), s'), l) ∧
      Admitted settings a client server expires s' := by
  have hkept := Token.Store.token?_sweep_of_lt hs.held (Token.expires?_issued ..) hexpires
  have hget : (s.tokens.get (.ofSocket a) (Transport.now l)).1 = some _ := hkept
  exact ⟨_, run_token_of_held hs.target hget patience, hs.settings, hs.target, hkept⟩

theorem run_token_of_room (hbudget : settings.pacing.budget ≠ 0)
    (hlifetime : Token.expiryMargin < settings.tokenLifetime) (hl : Welcoming servers l)
    (supply : Token.Supply) (a : SocketAddress) (patience : Nat) :
    ∃ server expires s' l', l.now < expires ∧ l'.now = l.now ∧ Attending servers server l' ∧
      Admitted settings a (supply 0) server expires s' ∧
      ((token (patience + 1)).dialogue ((Session.new settings supply).aim a)).run l =
        some ((.ok (.issued (supply 0) server expires), s'), l') := by
  obtain ⟨server, host, hanswer, hrole, hholding⟩ :=
    hl.receptive.answer_request hl.unknown hl.room (supply 0)
  have haccept := Inquiry.acceptToken_responseFrame settings.tokenLifetime (supply 0) server l.now a
  have hgood : l.now < l.now + (settings.tokenLifetime - Token.expiryMargin) :=
    Nat.lt_add_of_pos_right (Nat.sub_pos_of_lt hlifetime)
  generalize l.now + (settings.tokenLifetime - Token.expiryMargin) = expires at haccept hgood
  obtain ⟨deadline, hrun⟩ := Inquiry.run_replied hbudget hl.replies hanswer haccept patience
  let s := (Session.new settings supply).aim a
  have htarget : s.target = some a := rfl
  have hgranted := run_token_of_granted htarget rfl hrun
  refine ⟨server, expires, _, _, hgood, ?_, ?_, ?_, hgranted⟩
  · rfl
  · exact ⟨hrole.trans hl.role, hholding, rfl⟩
  · exact Admitted.granted htarget hgood _ _

theorem run_count_of_room (hbudget : settings.pacing.budget ≠ 0)
    (hlifetime : Token.expiryMargin < settings.tokenLifetime) (hl : Welcoming servers l)
    (supply : Token.Supply) (a : SocketAddress) (patience : Nat) :
    ∃ server expires s' l', l.now < expires ∧ l'.now = l.now ∧ Attending servers server l' ∧
      Admitted settings a (supply 0) server expires s' ∧
      ((count (patience + 1)).dialogue ((Session.new settings supply).aim a)).run l =
        some ((.ok (Packet.readCount servers.length), s'), l') := by
  obtain ⟨server, expires, s', l₁, hexpires, hnow, hl₁, hs', htoken⟩ :=
    run_token_of_room hbudget hlifetime hl supply a patience
  have hpayloads : l₁.host.role.payloads? .count =
      some [Packet.countPayload (Packet.statedCount servers.length)] := by
    rw [hl₁.role]
    rfl
  obtain ⟨host, hanswer, hrole, hholding⟩ := hl₁.holding.answer_asked hpayloads (supply 0)
  have haccept := acceptCount_response servers.length (supply 0) server l₁.now a
  obtain ⟨deadline, hrun⟩ := Inquiry.run_replied hbudget hl₁.replies hanswer haccept patience
  have htarget : ((Session.new settings supply).aim a).target = some a := rfl
  refine ⟨server, expires, s', { l₁ with deadline, host, replies := [] }, hexpires, hnow, ?_, hs',
    ?_⟩
  · exact ⟨hrole.trans hl₁.role, hholding, rfl⟩
  · rw [count, dialogue_target_bind htarget,
      run_asked_of_issued htoken (hnow.trans_lt hexpires) .count a acceptCount, hs'.settings, hrun]
    rfl

theorem run_listing {patience expected : Nat} (hbudget : settings.pacing.budget ≠ 0)
    (hservers : servers ≠ []) (hnodup : servers.Nodup) (hl : Attending servers server l)
    (hs : Admitted settings a client server expires s) (hexpires : l.now < expires)
    (hexpected : 1 ≤ expected) (hpatience : expected ≤ patience + 2)
    (hthere : Packet.chunkSize * expected < servers.length + Packet.chunkSize) :
    ∃ s' l', l'.now = l.now ∧ ((listing a expected (patience + 1)).dialogue s).run l =
      some ((.ok (servers.take (Packet.chunkSize * expected)), s'), l') := by
  obtain ⟨s', htoken, hs'⟩ := hs.run_token hexpires (patience + 1)
  have hframe := run_requestFrame htoken hexpires .list
  have hpayloads : l.host.role.payloads? .list = some (Packet.listPayloads servers) := by
    rw [hl.role]
    rfl
  obtain ⟨host, hanswer, -, -⟩ := hl.holding.answer_asked hpayloads client
  rw [Packet.listPayloads_of_ne_nil hservers] at hanswer
  have hfirst := List.length_take_le Packet.chunkSize servers
  have haccept := acceptList_response client server hfirst l.now a
  obtain ⟨deadline, hrun⟩ := Inquiry.run_replied hbudget hl.replies hanswer haccept patience
  let first := servers.take Packet.chunkSize
  let rest := servers.drop Packet.chunkSize
  have hsplit : first ++ rest = servers := List.take_append_drop ..
  have hunseen : unseen [] first = first := unseen_eq_self (hnodup.sublist (List.take_sublist ..))
  -- What is left of the replies are the pieces behind the first one.
  let l₁ : Link := { l with
    deadline := l.now + settings.pacing.budget
    host
    replies := listReplies a client server rest }
  have hthere' : Packet.chunkSize * (expected - 1) < rest.length + Packet.chunkSize := by
    rw [List.length_drop]
    rw [Packet.chunkSize] at *
    omega
  have hpatience' : expected ≤ patience + 1 + 1 := hpatience
  have hnodup' : (first ++ rest).Nodup := hsplit.symm ▸ hnodup
  obtain ⟨l', hgather, hnow⟩ := run_gather (l := l₁) (a := a) hpatience' hthere' hnodup' rfl
  have htake : first ++ rest.take (Packet.chunkSize * (expected - 1)) =
      servers.take (Packet.chunkSize * expected) := by
    obtain ⟨more, rfl⟩ := Nat.exists_eq_add_of_le' hexpected
    rw [Nat.add_sub_cancel, Nat.mul_succ, Nat.add_comm _ Packet.chunkSize, List.take_add]
  rw [htake] at hgather
  refine ⟨s', l', hnow, ?_⟩
  rw [listing, run_bind, hframe]
  show Dialogue.run ((clock >>= _).dialogue s') l = _
  rw [dialogue_clock_bind, Dialogue.run, run_bind, run_inquire, hs'.settings, hrun]
  refine (run_until _ _ _ _).trans ?_
  rw [hs'.settings, hunseen]
  show Option.map _ ((gather (.ofSocket a) expected (patience + 1) 1 first).run l₁) = _
  rw [hgather]
  rfl

theorem run_servers_of_room {patience : Nat} (hbudget : settings.pacing.budget ≠ 0)
    (hlifetime : Token.expiryMargin < settings.tokenLifetime) (hnodup : servers.Nodup)
    (hl : Welcoming servers l) (hpatience : 6 ≤ patience) (supply : Token.Supply)
    (a : SocketAddress) :
    ∃ s' l', ((Query.servers patience).dialogue ((Session.new settings supply).aim a)).run l =
        some ((.ok (servers.take
          (Packet.chunkSize * expectedChunks (Packet.readCount servers.length))), s'), l') ∧
      l'.now = l.now := by
  obtain ⟨p, rfl⟩ := Nat.exists_eq_add_of_le' (Nat.le_trans (by decide : 1 ≤ 6) hpatience)
  obtain ⟨server, expires, s₁, l₁, hexpires, hnow, hl₁, hs₁, hcount⟩ :=
    run_count_of_room hbudget hlifetime hl supply a p
  have htarget : ((Session.new settings supply).aim a).target = some a := rfl
  rw [run_servers_of_count htarget hcount]
  have hread := Packet.readCount_eq_zero_iff servers.length
  have hle := Packet.readCount_le servers.length
  have hlt := Packet.readCount_lt servers.length
  generalize Packet.readCount servers.length = c at *
  split_ifs with hc
  · obtain rfl : servers = [] := List.length_eq_zero_iff.mp (hread.mp hc)
    exact ⟨s₁, l₁, by rw [List.take_nil], hnow⟩
  · have hservers : servers ≠ [] := fun h => hc (hread.mpr (List.length_eq_zero_iff.mpr h))
    have hchunks : expectedChunks c = (c + 75 - 1) / 75 := rfl
    have hmore : 1 ≤ expectedChunks c ∧ expectedChunks c ≤ p + 2 ∧
        75 * expectedChunks c < servers.length + 75 := by omega
    obtain ⟨hsome, hfew, hthere⟩ := hmore
    obtain ⟨s₂, l₂, hnow₂, hrun⟩ := run_listing hbudget hservers hnodup hl₁ hs₁
      (hnow.trans_lt hexpires) hsome hfew hthere
    exact ⟨s₂, l₂, hrun, hnow₂.trans hnow⟩

end Stages

/-- The list of a master whose servers all differ, asked for by a new session over a link that loses
nothing: without any time going by it is read up to the last piece that the stated count calls for.
A count is not read as more than was stated, but beyond 255 it can be read as less. -/
theorem run_servers_of_master {servers : List Endpoint} {settings : Settings}
    {config : Host.Settings} {patience : Nat} (hnodup : servers.Nodup)
    (hbudget : 0 < settings.pacing.budget) (hlifetime : Token.expiryMargin < settings.tokenLifetime)
    (hfirst : config.dropFirst = 0) (hloses : ∀ n, config.loses n = false)
    (hroom : 1 ≤ config.maxTokens) (hpatience : 6 ≤ patience) (supply hostSupply : Token.Supply)
    (client target : SocketAddress) (now : Time) :
    ∃ c, Packet.parseCount (Packet.countPayload (UInt16.ofNat (min servers.length 65535))) = .ok c ∧
      let found := servers.take (min servers.length (75 * ((c + 74) / 75)))
      (∃ s' l', ((Query.servers patience).dialogue ((Session.new settings supply).aim target)).run
          (Link.new now client (.new (.master servers) config hostSupply)) =
        some ((.ok found, s'), l') ∧ l'.now = now) ∧
      (servers.length ≤ 255 → found = servers) ∧ (found = [] ↔ servers.length = 0) := by
  let host := Host.new (.master servers) config hostSupply
  have hl : Welcoming servers (Link.new now client host) :=
    ⟨rfl, ⟨hfirst.le, hloses⟩, rfl, hroom, rfl⟩
  refine ⟨Packet.readCount servers.length, Packet.parseCount_countPayload servers.length, ?_⟩
  intro found
  have htake : found = servers.take (75 * expectedChunks (Packet.readCount servers.length)) := by
    rw [List.take_eq_take_min, Nat.min_comm]
    rfl
  have hlength : found.length =
      min servers.length (75 * ((Packet.readCount servers.length + 74) / 75)) := by
    rw [List.length_take, Nat.min_eq_left (Nat.min_le_left ..)]
  refine ⟨?_, ?_, ?_⟩
  · rw [htake]
    exact run_servers_of_room hbudget.ne' hlifetime hnodup hl hpatience supply target
  · intro hfew
    rw [htake, Packet.readCount_of_le hfew]
    apply List.take_of_length_le
    have hchunks : expectedChunks servers.length = (servers.length + 75 - 1) / 75 := rfl
    omega
  · have hread := Packet.readCount_eq_zero_iff servers.length
    rw [← List.length_eq_zero_iff, hlength]
    omega

def twoServers : List Endpoint :=
  [.ofSocket (.v4 ⟨10, 0, 0, 3⟩ 8303), .ofSocket (.v6 ⟨0x2001, 0xdb8, 0, 0, 0, 0, 0, 1⟩ 8304 0 0)]

theorem run_servers_of_two : ∃ s' l',
    ((Query.servers 6).dialogue ((Session.new {} fun _ => 7).aim (.v4 ⟨10, 0, 0, 1⟩ 8300))).run
        (Link.new 5 (.v4 ⟨10, 0, 0, 2⟩ 40000) (.new (.master twoServers) {} fun _ => 9)) =
      some ((.ok twoServers, s'), l') ∧ l'.now = 5 := by
  obtain ⟨c, -, ⟨s', l', hrun, hnow⟩, hall, -⟩ := @run_servers_of_master twoServers {} {} 6
    (by decide +kernel) (by decide) (by decide) rfl (fun _ => rfl) (by decide) (by decide)
    (fun _ => 7) (fun _ => 9) (.v4 ⟨10, 0, 0, 2⟩ 40000) (.v4 ⟨10, 0, 0, 1⟩ 8300) 5
  rw [hall (by decide)] at hrun
  exact ⟨s', l', hrun, hnow⟩

end Query
end ServerDiscovery.Client
