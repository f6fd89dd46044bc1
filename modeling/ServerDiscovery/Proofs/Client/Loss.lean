import Mathlib.Data.List.Basic
import ServerDiscovery.Proofs.Client.Backoff
import ServerDiscovery.Proofs.Client.Handshake
import ServerDiscovery.Proofs.Simulation.Link

/-! A question asked over a link that loses the first datagrams. Each attempt that is lost doubles
the copies of the next one and the time until then, so the losses alone say when the answer comes. -/

namespace ServerDiscovery.Client

open Simulation

variable {α : Type} {x : Inquiry} {accept : Accept α} {patience : Nat} {l : Link}

namespace Inquiry

theorem run_attempt (x : Inquiry) (wait : Dialogue (Except Failure α)) (l : Link) :
    (x.attempt wait).run l =
      if x.left l.now = 0 then some (.error .timeout, l)
      else wait.run (Link.send { l with deadline := l.now + min x.window (x.left l.now) } x.target
        x.request x.burst) :=
  run_attempt_launch x wait l

theorem run_await_of_reject {r : Reception} {l' : Link} (hreceive : l.receive = (r, l'))
    (hjudge : x.judge accept l'.now r = .reject) (patience : Nat) :
    (await accept (patience + 1) x).run l =
      ((x.backOff l'.now).attempt (await accept patience (x.backOff l'.now))).run l' := by
  have htransport : Transport.receive l = (r, l') := hreceive
  have hnow : Transport.now l' = l'.now := rfl
  rw [run_await, htransport, hnow, hjudge]

theorem run_await_of_settle {r : Reception} {l' : Link} {result : Except Failure α}
    (hreceive : l.receive = (r, l')) (hjudge : x.judge accept l'.now r = .settle result)
    (patience : Nat) :
    (await accept (patience + 1) x).run l = some (result, l') := by
  have htransport : Transport.receive l = (r, l') := hreceive
  have hnow : Transport.now l' = l'.now := rfl
  rw [run_await, htransport, hnow, hjudge]

def after (target : SocketAddress) (request : Bytes) (pacing : Pacing) (now : Time) (n : Nat) :
    Inquiry where
  target := target
  request := request
  pacing := pacing
  started := now
  window := min (pacing.firstWindow * 2 ^ n) (pacing.budget - elapsed pacing n)
  burst := min (2 ^ n) maxBurst

section After

variable {target : SocketAddress} {request : Bytes} {pacing : Pacing} {t₀ : Time} {n : Nat}

theorem after_zero (target : SocketAddress) (request : Bytes) (pacing : Pacing) (t₀ : Time) :
    after target request pacing t₀ 0 = start target request pacing t₀ := by
  have hle := pacing.firstWindow_le
  have hwindow : min (pacing.firstWindow * 2 ^ 0) (pacing.budget - elapsed pacing 0)
      = pacing.firstWindow := by
    simp only [elapsed, Nat.pow_zero, Nat.mul_one, Nat.sub_self, Nat.mul_zero, Nat.sub_zero]
    exact Nat.min_eq_left hle
  have hburst : min (2 ^ 0) maxBurst = 1 := rfl
  unfold after start
  rw [hwindow, hburst]

theorem after_left (target : SocketAddress) (request : Bytes) (pacing : Pacing) (t₀ : Time)
    (n : Nat) (e : Time) : (after target request pacing t₀ n).left (t₀ + e) = pacing.budget - e := by
  simp only [left, after, Nat.add_sub_cancel_left]

theorem after_deadline (hn : elapsed pacing n < pacing.budget) :
    elapsed pacing n + min (after target request pacing t₀ n).window
        (pacing.budget - elapsed pacing n)
      = min (elapsed pacing (n + 1)) pacing.budget := by
  rw [elapsed_succ]
  simp only [after]
  generalize elapsed pacing n = e at hn ⊢
  generalize pacing.firstWindow * 2 ^ n = w
  lia

theorem copies_succ (n : Nat) : 2 ^ (n + 1) - 1 = 2 ^ n - 1 + 2 ^ n := by
  have hpos : 1 ≤ 2 ^ n := Nat.one_le_two_pow
  rw [Nat.pow_succ]
  omega

theorem exists_burst {k : Nat} (hbefore : 2 ^ n - 1 ≤ k) (hafter : k < 2 ^ (n + 1) - 1)
    (hmost : k ≤ maxBurst) :
    ∃ lost more, 2 ^ n - 1 + lost = k ∧
      (after target request pacing t₀ n).burst = lost + (more + 1) ∧ more ≤ k := by
  have hpos : 1 ≤ 2 ^ n := Nat.one_le_two_pow
  rw [Nat.pow_succ] at hafter
  simp only [after, maxBurst] at hmost ⊢
  generalize 2 ^ n = b at *
  exact ⟨k - (b - 1), min b 18446744073709551615 - (k - (b - 1)) - 1, by lia, by lia, by lia⟩

theorem after_backOff (hn : elapsed pacing n < pacing.budget) :
    (after target request pacing t₀ n).backOff (t₀ + min (elapsed pacing (n + 1)) pacing.budget)
      = after target request pacing t₀ (n + 1) := by
  have hburst : min (2 * min (2 ^ n) maxBurst) maxBurst = min (2 ^ (n + 1)) maxBurst := by
    rw [Nat.pow_succ]
    generalize 2 ^ n = b
    generalize maxBurst = most
    lia
  have hwindow : min (2 * (after target request pacing t₀ n).window)
      (pacing.budget - min (elapsed pacing (n + 1)) pacing.budget)
        = min (pacing.firstWindow * 2 ^ (n + 1)) (pacing.budget - elapsed pacing (n + 1)) := by
    simp only [after, elapsed_succ, Nat.pow_succ, ← Nat.mul_assoc]
    generalize elapsed pacing n = e at hn ⊢
    generalize pacing.firstWindow * 2 ^ n = w
    lia
  unfold backOff
  rw [after_left, hwindow]
  simp only [after, hburst]

end After

/-- Nothing is on its way, since the host has lost all of so many datagrams. -/
structure Lost (host : Host) (n : Nat) (l : Link) : Prop where
  replies : l.replies = []
  host : ∃ stats, stats.received = n ∧ l.host = { host with stats }

section Lost

variable {host : Host} {target : SocketAddress} {request : Bytes} {pacing : Pacing} {t₀ : Time}
  {n : Nat}

theorem Lost.send {copies : Nat} (hl : Lost host n l)
    (hlost : n + copies ≤ host.settings.dropFirst) (target : SocketAddress) (request : Bytes) :
    ∃ host', l.send target request copies = { l with host := host' } ∧
      Lost host (n + copies) { l with host := host' } := by
  obtain ⟨hreplies, stats, rfl, hhost⟩ := hl
  have hbefore : l.host.stats.received + copies ≤ l.host.settings.dropFirst := by
    rw [hhost]
    exact hlost
  obtain ⟨stats', hstats', hsend⟩ := Link.send_lost hbefore
  rw [hhost] at hsend hstats'
  exact ⟨_, hsend, hreplies, stats', hstats', rfl⟩

theorem run_lost_attempt (accept : Accept α) (patience : Nat) (hl : Lost host (2 ^ n - 1) l)
    (hlost : 2 ^ (n + 1) - 1 ≤ host.settings.dropFirst) (hmost : host.settings.dropFirst ≤ maxBurst)
    (hnow : l.now = t₀ + elapsed pacing n) (hn : elapsed pacing n < pacing.budget) :
    ∃ l', ((after target request pacing t₀ n).attempt
          (await accept (patience + 1) (after target request pacing t₀ n))).run l =
        ((after target request pacing t₀ (n + 1)).attempt
          (await accept patience (after target request pacing t₀ (n + 1)))).run l' ∧
      l'.now = t₀ + min (elapsed pacing (n + 1)) pacing.budget ∧ l'.client = l.client ∧
      Lost host (2 ^ (n + 1) - 1) l' := by
  have hpow := copies_succ n
  have hburst : (after target request pacing t₀ n).burst = 2 ^ n := by
    apply Nat.min_eq_left
    omega
  have hleft := after_left target request pacing t₀ n (elapsed pacing n)
  rw [← hnow] at hleft
  have hdeadline : l.now + min (after target request pacing t₀ n).window
      (pacing.budget - elapsed pacing n)
        = t₀ + min (elapsed pacing (n + 1)) pacing.budget := by
    rw [hnow, Nat.add_assoc, after_deadline hn]
  rw [hpow] at hlost ⊢
  rw [run_attempt, if_neg (by rw [hleft]; lia), hleft, hdeadline, hburst]
  generalize hd : t₀ + min (elapsed pacing (n + 1)) pacing.budget = d at hdeadline ⊢
  have hstart : Lost host (2 ^ n - 1) { l with deadline := d } := ⟨hl.replies, hl.host⟩
  obtain ⟨host', hsend, hend⟩ := hstart.send hlost target request
  have hreceive := Link.receive_nil hend.replies
  have hmax : max l.now d = d := by
    have hle : l.now ≤ d := hdeadline ▸ Nat.le_add_right ..
    exact Nat.max_eq_right hle
  dsimp only at hreceive
  rw [hmax] at hreceive
  have hbackOff : (after target request pacing t₀ n).backOff d
      = after target request pacing t₀ (n + 1) := hd ▸ after_backOff hn
  have hjudge : (after target request pacing t₀ n).judge accept d .timedOut = .reject := rfl
  have hrun := run_await_of_reject hreceive hjudge patience
  dsimp only at hrun
  rw [hbackOff] at hrun
  refine ⟨_, (congrArg (fun l => (await accept (patience + 1)
    (after target request pacing t₀ n)).run l) hsend).trans hrun, rfl, rfl, hend.replies, hend.host⟩

theorem run_lost_attempts (accept : Accept α) (patience : Nat)
    (hlost : 2 ^ n - 1 ≤ host.settings.dropFirst) (hmost : host.settings.dropFirst ≤ maxBurst)
    (hl : Lost host 0 l) (hnow : l.now = t₀) (hn : elapsed pacing n < pacing.budget)
    (target : SocketAddress) (request : Bytes) :
    ∃ l', (inquire pacing target request accept (patience + n)).run l =
        ((after target request pacing t₀ n).attempt
          (await accept patience (after target request pacing t₀ n))).run l' ∧
      l'.now = t₀ + elapsed pacing n ∧ l'.client = l.client ∧ Lost host (2 ^ n - 1) l' := by
  -- Each attempt uses up one reception, and leaves the link as the next one needs it.
  induction n generalizing patience with
  | zero =>
    refine ⟨l, ?_, ?_, rfl, hl⟩
    · rw [after_zero, ← hnow]
      rfl
    · rw [hnow]
      simp [elapsed]
  | succ n ih =>
    have hmono := elapsed_mono pacing (Nat.le_succ n)
    have hpow : 2 ^ n ≤ 2 ^ (n + 1) := Nat.pow_le_pow_right (by omega) (Nat.le_succ n)
    obtain ⟨l', hrun, hnow', hclient, hl'⟩ :=
      ih (patience + 1) (by omega) (Nat.lt_of_le_of_lt hmono hn)
    obtain ⟨l'', hrun', hnow'', hclient', hl''⟩ := run_lost_attempt accept patience hl' hlost hmost
      hnow' (Nat.lt_of_le_of_lt hmono hn)
    refine ⟨l'', ?_, ?_, hclient'.trans hclient, hl''⟩
    · rw [← hrun', ← hrun, Nat.add_right_comm]
      rfl
    · rw [hnow'', Nat.min_eq_left (Nat.le_of_lt hn)]

theorem run_all_lost (accept : Accept α) (hlost : 2 ^ n - 1 ≤ host.settings.dropFirst)
    (hmost : host.settings.dropFirst ≤ maxBurst) (hl : Lost host 0 l) (hnow : l.now = t₀)
    (hn : pacing.budget ≤ elapsed pacing n) (hpatience : n ≤ patience) (target : SocketAddress)
    (request : Bytes) :
    ∃ l', (inquire pacing target request accept patience).run l = some (.error .timeout, l') ∧
      l'.now = t₀ + pacing.budget := by
  induction n with
  | zero =>
    have hzero : pacing.budget = 0 := by simpa [elapsed] using hn
    have hleft : (start target request pacing l.now).left l.now = 0 := by
      simp [left, start, hzero]
    refine ⟨l, ?_, by rw [hnow, hzero]; rfl⟩
    show ((start target request pacing l.now).attempt _).run l = _
    rw [run_attempt, if_pos hleft]
  | succ n ih =>
    have hpow : 2 ^ n ≤ 2 ^ (n + 1) := Nat.pow_le_pow_right (by omega) (Nat.le_succ n)
    -- Either the attempt before is the last that there is time for, or an earlier one was.
    rcases Nat.lt_or_ge (elapsed pacing n) pacing.budget with hlt | hge
    · obtain ⟨p, rfl⟩ := Nat.exists_eq_add_of_le' hpatience
      obtain ⟨l', hrun, hnow', -, hl'⟩ := run_lost_attempts accept (p + 1)
        (Nat.le_trans (Nat.sub_le_sub_right hpow 1) hlost) hmost hl hnow hlt target request
      obtain ⟨l'', hrun', hnow'', -, -⟩ := run_lost_attempt accept p hl' hlost hmost hnow' hlt
      rw [Nat.min_eq_right hn] at hnow''
      have hleft := after_left target request pacing t₀ (n + 1) pacing.budget
      rw [← hnow'', Nat.sub_self] at hleft
      refine ⟨l'', ?_, hnow''⟩
      rw [← Nat.add_assoc, Nat.add_right_comm, hrun, hrun', run_attempt, if_pos hleft]
    · exact ih (Nat.le_trans (Nat.sub_le_sub_right hpow 1) hlost) hge (Nat.le_of_succ_le hpatience)

end Lost

theorem Lost.send_request {host : Host} {n lost : Nat} (hl : Lost host n l)
    (hloses : ∀ i, host.settings.loses i = false)
    (hnew : host.ledger.live? l.client l.now = none)
    (hroom : host.ledger.size < host.ledger.capacity) (hlost : n + lost = host.settings.dropFirst)
    (more : Nat) (target : SocketAddress) (client : Int32) :
    ∃ server host', host'.role = host.role ∧ host'.Holding l.client server l.now ∧
      l.send target (Token.requested client).requestFrame (lost + (more + 1)) =
        { l with
          host := host'
          replies := List.replicate (more + 1) (Token.responseFrame client server, target) } := by
  obtain ⟨hreplies, stats, hstats, hhost⟩ := hl
  have hstart : Lost host n l := ⟨hreplies, stats, hstats, hhost⟩
  obtain ⟨host₁, hsend, -, stats₁, hstats₁, rfl⟩ :=
    hstart.send hlost.le target (Token.requested client).requestFrame
  have hreceptive : Host.Receptive { host with stats := stats₁ } :=
    ⟨(hlost.symm.trans hstats₁.symm).le, hloses⟩
  obtain ⟨server, host₁, hgranted, hrole, hholding⟩ :=
    hreceptive.answer_request hnew hroom client
  have hfirst : Link.deliver { l with host := { host with stats := stats₁ } } target
      (Token.requested client).requestFrame = { l with
        host := host₁
        replies := [(Token.responseFrame client server, target)] } := by
    rw [Link.deliver_eq, hgranted, hreplies]
    rfl
  have hagain : ∀ h : Host, h.role = host.role ∧ h.Holding l.client server l.now →
      ∃ h', h.answer l.now (Token.requested client).requestFrame l.client
          = ([Token.responseFrame client server], h') ∧
        h'.role = host.role ∧ h'.Holding l.client server l.now := by
    rintro h ⟨hrole, hholding⟩
    obtain ⟨h', hanswer, hrole', hholding'⟩ := hholding.answer_request client
    exact ⟨h', hanswer, hrole'.trans hrole, hholding'⟩
  -- The burst in three: the copies that are lost, the one that is granted, and the rest.
  rw [Link.send_add, hsend, Link.send_succ, hfirst]
  let l₁ := { l with host := host₁, replies := [(Token.responseFrame client server, target)] }
  obtain ⟨host₂, ⟨hrole₂, hholding₂⟩, hmore⟩ :=
    l₁.send_answered hagain ⟨hrole, hholding⟩ target more
  exact ⟨server, host₂, hrole₂, hholding₂, hmore⟩

theorem judge_of_error {now : Time} {payload : Bytes} {source : SocketAddress} {f : Failure}
    (hfrom : x.isFromTarget source = true) (herror : accept now payload source = .error f) :
    x.judge accept now (.datagram payload source) = .reject := by
  rw [judge_of_isFromTarget hfrom, herror]

theorem take_responseFrame (client server : Int32) :
    (Token.responseFrame client server).take Packet.maxSize = Token.responseFrame client server := by
  have hlen := (Token.responseFrame_fields client server).1
  exact List.take_of_length_le (by rw [hlen]; decide)

theorem acceptToken_responseFrame (lifetime : Time) (client server : Int32) (now : Time)
    (source : SocketAddress) :
    Query.acceptToken lifetime (.requested client) now
        ((Token.responseFrame client server).take Packet.maxSize) source =
      .ok (.issued client server (now + (lifetime - Token.expiryMargin))) := by
  obtain ⟨hlen, h₃, h₈⟩ := Token.responseFrame_fields client server
  rw [take_responseFrame]
  exact Query.acceptToken_eq_ok_iff.mpr ⟨hlen, h₃, server, h₈, rfl⟩

theorem acceptRecord_responseFrame (client server : Int32) (now : Time) (source : SocketAddress) :
    ∃ f, Query.acceptRecord now (Token.responseFrame client server) source = .error f := by
  have hkind : ReplyKind.info ≠ .token := by decide
  obtain ⟨fault, hfault⟩ := Packet.expectResponse_responseFrame client server hkind
  unfold Query.acceptRecord
  rw [hfault]
  exact ⟨_, rfl⟩

theorem run_granted {host : Host} {pacing : Pacing} {t₀ : Time} {n : Nat}
    (hloses : ∀ i, host.settings.loses i = false)
    (hnew : ∀ now, host.ledger.live? l.client now = none)
    (hroom : host.ledger.size < host.ledger.capacity) (hl : Lost host 0 l) (hnow : l.now = t₀)
    (hbefore : 2 ^ n - 1 ≤ host.settings.dropFirst)
    (hafter : host.settings.dropFirst < 2 ^ (n + 1) - 1)
    (hmost : host.settings.dropFirst ≤ maxBurst) (hn : elapsed pacing n < pacing.budget)
    (hpatience : n < patience) (target : SocketAddress) (client : Int32) (lifetime : Time) :
    ∃ server more l',
      (inquire pacing target (Token.requested client).requestFrame
          (Query.acceptToken lifetime (.requested client)) patience).run l =
        some (.ok (.issued client server
          (t₀ + elapsed pacing n + (lifetime - Token.expiryMargin))), l') ∧
      l'.now = t₀ + elapsed pacing n ∧ l'.host.role = host.role ∧
      l'.host.Holding l'.client server l'.now ∧
      l'.replies = List.replicate more (Token.responseFrame client server, target) ∧
      more ≤ host.settings.dropFirst := by
  obtain ⟨p, rfl⟩ : ∃ p, patience = p + 1 + n := ⟨patience - n - 1, by omega⟩
  obtain ⟨l₁, hrun, hnow₁, hclient, hl₁⟩ := run_lost_attempts
    (Query.acceptToken lifetime (.requested client)) (p + 1) hbefore hmost hl hnow hn target
    (Token.requested client).requestFrame
  let x := after target (Token.requested client).requestFrame pacing t₀ n
  obtain ⟨lost, more, hlost, hburst, hmore⟩ : ∃ lost more, _ ∧ x.burst = lost + (more + 1) ∧ _ :=
    exists_burst hbefore hafter hmost
  have hleft : x.left l₁.now = pacing.budget - elapsed pacing n := by
    rw [hnow₁]
    exact after_left ..
  generalize hd : l₁.now + min x.window (x.left l₁.now) = d
  have hwaiting : Lost host (2 ^ n - 1) { l₁ with deadline := d } := ⟨hl₁.replies, hl₁.host⟩
  obtain ⟨server, host', hrole, hholding, hsend⟩ := hwaiting.send_request hloses
    (by rw [hclient]; exact hnew _) hroom hlost more target client
  have hreceive := Link.receive_cons (l := { l₁ with
    deadline := d
    host := host'
    replies := List.replicate (more + 1) (Token.responseFrame client server, target) })
    List.replicate_succ
  have haccept := acceptToken_responseFrame lifetime client server l₁.now target
  have hfrom : x.isFromTarget target = true := decide_eq_true rfl
  have hsettle := run_await_of_settle hreceive (judge_datagram hfrom haccept) p
  rw [← hnow₁]
  refine ⟨server, more, { l₁ with
    deadline := d
    host := host'
    replies := List.replicate more (Token.responseFrame client server, target) },
    ?_, rfl, hrole, hholding, rfl, hmore⟩
  rw [hrun, run_attempt, if_neg (by rw [hleft]; lia)]
  show (await _ _ x).run (Link.send { l₁ with deadline := _ } target
    (Token.requested client).requestFrame x.burst) = _
  rw [hd, hburst, hsend]
  exact hsettle

theorem run_attempt_holding {r : ServerRecord} {server client : Int32}
    (hrequest : x.request = Token.followUpHeader server client ++ Question.info.marker)
    (hleft : x.left l.now ≠ 0) (hrole : l.host.role = .game r)
    (hholding : l.host.Holding l.client server l.now) (wait : Dialogue (Except Failure α)) :
    ∃ l', (x.attempt wait).run l = wait.run l' ∧ l'.now = l.now ∧ l'.host.role = .game r ∧
      l'.host.Holding l'.client server l'.now ∧ l'.replies = l.replies ++
        List.replicate x.burst (Packet.response client server .info r.encode, x.target) := by
  generalize hd : l.now + min x.window (x.left l.now) = d
  let l₁ := { l with deadline := d }
  have hanswered : ∀ h : Host, h.role = .game r ∧ h.Holding l₁.client server l₁.now →
      ∃ h', h.answer l₁.now x.request l₁.client
          = ([Packet.response client server .info r.encode], h') ∧
        h'.role = .game r ∧ h'.Holding l₁.client server l₁.now := by
    rintro h ⟨hrole, hholding⟩
    have hpayloads : h.role.payloads? .info = some [r.encode] := by
      rw [hrole]
      rfl
    obtain ⟨h', hanswer, hrole', hholding'⟩ := hholding.answer_asked hpayloads client
    rw [hrequest]
    exact ⟨h', hanswer, hrole'.trans hrole, hholding'⟩
  obtain ⟨host', ⟨hrole', hholding'⟩, hsend⟩ :=
    l₁.send_answered hanswered ⟨hrole, hholding⟩ x.target x.burst
  rw [run_attempt, if_neg hleft, hd, hsend]
  exact ⟨_, rfl, rfl, hrole', hholding', rfl⟩

theorem run_rejecting {r answer : ServerRecord} {server client : Int32} {n : Nat}
    {rest : List (Bytes × SocketAddress)}
    (hrequest : x.request = Token.followUpHeader server client ++ Question.info.marker)
    (hleft : x.left l.now ≠ 0) (hrole : l.host.role = .game r)
    (hholding : l.host.Holding l.client server l.now)
    (hreplies : l.replies = List.replicate n (Token.responseFrame client server, x.target)
      ++ (Packet.response client server .info r.encode, x.target) :: rest)
    (haccept : Query.acceptRecord l.now
      ((Packet.response client server .info r.encode).take Packet.maxSize) x.target = .ok answer) :
    ∃ l', (await Query.acceptRecord (patience + 1 + n) x).run l = some (.ok answer, l') ∧
      l'.now = l.now := by
  have hfrom : x.isFromTarget x.target = true := decide_eq_true rfl
  -- Answers pile up behind the grants, so that `rest` grows while `n` goes down.
  induction n generalizing x l rest with
  | zero =>
    have hreceive := Link.receive_cons hreplies
    exact ⟨_, run_await_of_settle hreceive (judge_datagram hfrom haccept) _, rfl⟩
  | succ n ih =>
    rw [List.replicate_succ, List.cons_append] at hreplies
    have hreceive := Link.receive_cons hreplies
    rw [take_responseFrame] at hreceive
    obtain ⟨f, hf⟩ := acceptRecord_responseFrame client server l.now x.target
    have hreject := run_await_of_reject hreceive (judge_of_error hfrom hf) (patience + 1 + n)
    let x' := x.backOff l.now
    let l₀ := { l with replies := List.replicate n (Token.responseFrame client server, x.target)
      ++ (Packet.response client server .info r.encode, x.target) :: rest }
    have hleft' : x'.left l₀.now ≠ 0 := hleft
    obtain ⟨l₁, hattempt, hnow₁, hrole₁, hholding₁, hreplies₁⟩ := run_attempt_holding (x := x')
      (l := l₀) hrequest hleft' hrole hholding (await Query.acceptRecord (patience + 1 + n) x')
    rw [List.append_assoc, List.cons_append] at hreplies₁
    rw [← hnow₁] at hleft'
    have haccept' : Query.acceptRecord l₁.now ((Packet.response client server .info
        r.encode).take Packet.maxSize) x'.target = .ok answer := hnow₁.symm ▸ haccept
    obtain ⟨l₂, hrun, hnow₂⟩ := ih (x := x') hrequest hleft' hrole₁ hholding₁ hreplies₁ haccept'
      hfrom
    exact ⟨l₂, hreject.trans (hattempt.trans hrun), hnow₂.trans hnow₁⟩

theorem run_asked {r answer : ServerRecord} {server client : Int32} {n : Nat} {pacing : Pacing}
    {target : SocketAddress} (hbudget : pacing.budget ≠ 0)
    (hrole : l.host.role = .game r) (hholding : l.host.Holding l.client server l.now)
    (hreplies : l.replies = List.replicate n (Token.responseFrame client server, target))
    (haccept : Query.acceptRecord l.now
      ((Packet.response client server .info r.encode).take Packet.maxSize) target = .ok answer)
    (hpatience : n < patience) :
    ∃ l', (inquire pacing target (Token.followUpHeader server client ++ Question.info.marker)
        Query.acceptRecord patience).run l = some (.ok answer, l') ∧ l'.now = l.now := by
  obtain ⟨p, rfl⟩ : ∃ p, patience = p + 1 + n := ⟨patience - n - 1, by omega⟩
  let x := start target (Token.followUpHeader server client ++ Question.info.marker) pacing l.now
  have hleft : x.left l.now ≠ 0 := by
    simpa [x, left, start] using hbudget
  obtain ⟨l₁, hattempt, hnow₁, hrole₁, hholding₁, hreplies₁⟩ := run_attempt_holding (x := x) rfl
    hleft hrole hholding (await Query.acceptRecord (p + 1 + n) x)
  rw [hreplies] at hreplies₁
  have hfirst : l₁.replies = List.replicate n (Token.responseFrame client server, target)
      ++ (Packet.response client server .info r.encode, target) :: [] := hreplies₁
  rw [← hnow₁] at haccept hleft
  obtain ⟨l₂, hrun, hnow₂⟩ := run_rejecting (x := x) rfl hleft hrole₁ hholding₁ hfirst
    haccept
  exact ⟨l₂, hattempt.trans hrun, hnow₂.trans hnow₁⟩

end Inquiry

end ServerDiscovery.Client
