import Mathlib.Data.List.Chain
import ServerDiscovery.Proofs.Host.Log

/-! Who is answered. The traffic of one address alone, as the receipts of a run show it, tells which
token the address holds, and questions are answered of those only that carry it. -/

namespace ServerDiscovery.Host

namespace Receipt

def Grants (r : Receipt) (a : SocketAddress) (server : Int32) : Prop :=
  r.source = a ∧ Token.isRequest r.datagram = true ∧
    ∃ client, r.replies = [Token.responseFrame client server]

/-- The token was issued to the address. Handing a live one out again counts only `again`. -/
def Issues (again : Bool) (r : Receipt) (a : SocketAddress) (server : Int32) : Prop :=
  r.Grants a server ∧ (again = true ∨ r.drawn = true)

/-- The address was heard of, as far as the token goes: it asked for one, or it used this one. -/
def refreshes (a : SocketAddress) (server : Int32) (r : Receipt) : Bool :=
  r.source = a && !r.lost && (Token.isRequest r.datagram || decide (Packet.Carries server r.datagram))

variable {r : Receipt} {a : SocketAddress} {server server' : Int32} {again : Bool}

theorem Issues.eq (h : r.Issues again a server) (h' : r.Issues again a server') :
    server = server' := by
  obtain ⟨⟨-, -, client, hreplies⟩, -⟩ := h
  obtain ⟨⟨-, -, client', hreplies'⟩, -⟩ := h'
  rw [hreplies, List.singleton_inj] at hreplies'
  exact (Token.responseFrame_inj hreplies').2

end Receipt

def Within (lifetime earlier later : Time) : Prop := later ≤ earlier + lifetime

/-- The token last issued to the address has been refreshed ever since, and up to now, before a
lifetime had passed. -/
def Holds (again : Bool) (lifetime : Time) (log : List Receipt) (a : SocketAddress)
    (server : Int32) (now : Time) : Prop :=
  ∃ before issue after, log = before ++ issue :: after ∧ issue.Issues again a server ∧
    (∀ r ∈ after, ∀ server', ¬ r.Issues again a server') ∧
    (issue.time :: (after.filter (Receipt.refreshes a server)).map Receipt.time
      ++ [now]).IsChain (Within lifetime)

variable {again : Bool} {lifetime now t : Time} {log before after : List Receipt} {x y : Receipt}
  {a : SocketAddress} {server server' : Int32}

theorem concat_eq_split_iff : log ++ [x] = before ++ y :: after ↔
    (y = x ∧ after = [] ∧ before = log) ∨
      ∃ rest, after = rest ++ [x] ∧ log = before ++ y :: rest := by
  constructor
  · intro h
    rcases List.eq_nil_or_concat after with rfl | ⟨rest, z, rfl⟩
    · obtain ⟨hlog, hx⟩ := List.append_inj' h rfl
      exact .inl ⟨(List.singleton_inj.mp hx).symm, rfl, hlog.symm⟩
    · have hsplit : log ++ [x] = (before ++ y :: rest) ++ [z] := by
        rw [h, List.concat_eq_append, List.append_assoc, List.cons_append]
      obtain ⟨hlog, hx⟩ := List.append_inj' hsplit rfl
      exact .inr ⟨rest, by rw [List.concat_eq_append, hx], hlog⟩
  · rintro (⟨rfl, rfl, rfl⟩ | ⟨rest, rfl, rfl⟩)
    · rfl
    · rw [List.append_assoc, List.cons_append]

theorem holds_nil : ¬ Holds again lifetime [] a server now := by
  rintro ⟨before, issue, after, hlog, -⟩
  exact List.append_ne_nil_of_right_ne_nil before (List.cons_ne_nil issue after) hlog.symm

theorem holds_concat_of_issue (hx : x.Issues again a server') :
    Holds again lifetime (log ++ [x]) a server t ↔ server' = server ∧ t ≤ x.time + lifetime := by
  constructor
  · rintro ⟨before, issue, after, hlog, hissue, hlast, hchain⟩
    rcases concat_eq_split_iff.mp hlog with ⟨rfl, rfl, -⟩ | ⟨rest, rfl, -⟩
    · have hgap : Within lifetime issue.time t := List.isChain_pair.mp hchain
      exact ⟨hx.eq hissue, hgap⟩
    · exact absurd hx (hlast x (List.mem_append_right rest (List.mem_singleton_self x)) server')
  · rintro ⟨rfl, hle⟩
    have hgap : Within lifetime x.time t := hle
    exact ⟨log, x, [], rfl, hx, fun _ hr => (nomatch hr), List.isChain_pair.mpr hgap⟩

theorem holds_concat (hx : ∀ server', ¬ x.Issues again a server') :
    Holds again lifetime (log ++ [x]) a server t ↔
      ∃ before issue after, log = before ++ issue :: after ∧ issue.Issues again a server ∧
        (∀ r ∈ after, ∀ server', ¬ r.Issues again a server') ∧
        (issue.time :: ((after ++ [x]).filter (Receipt.refreshes a server)).map Receipt.time
          ++ [t]).IsChain (Within lifetime) := by
  constructor
  · rintro ⟨before, issue, after, hlog, hissue, hlast, hchain⟩
    rcases concat_eq_split_iff.mp hlog with ⟨rfl, -, -⟩ | ⟨rest, rfl, hrest⟩
    · exact absurd hissue (hx server)
    · exact ⟨before, issue, rest, hrest, hissue,
        fun r hr => hlast r (List.mem_append_left _ hr), hchain⟩
  · rintro ⟨before, issue, after, hlog, hissue, hlast, hchain⟩
    have hsplit : log ++ [x] = before ++ issue :: (after ++ [x]) :=
      concat_eq_split_iff.mpr (.inr ⟨after, rfl, hlog⟩)
    refine ⟨before, issue, after ++ [x], hsplit, hissue, fun r hr => ?_, hchain⟩
    rcases List.mem_append.mp hr with hr | hr
    · exact hlast r hr
    · obtain rfl := List.mem_singleton.mp hr
      exact hx

theorem holds_concat_of_refresh (hx : ∀ server', ¬ x.Issues again a server')
    (hrefresh : x.refreshes a server = true) :
    Holds again lifetime (log ++ [x]) a server t ↔
      Holds again lifetime log a server x.time ∧ t ≤ x.time + lifetime := by
  have hfilter : ∀ after : List Receipt, (after ++ [x]).filter (Receipt.refreshes a server)
      = after.filter (Receipt.refreshes a server) ++ [x] := by
    intro after
    rw [List.filter_append, List.filter_cons_of_pos hrefresh, List.filter_nil]
  have hchain : ∀ first times, (first :: (times ++ [x.time]) ++ [t]).IsChain (Within lifetime) ↔
      (first :: times ++ [x.time]).IsChain (Within lifetime) ∧ t ≤ x.time + lifetime := by
    intro first times
    have hsplit : first :: (times ++ [x.time]) ++ [t] = (first :: times) ++ x.time :: [t] := by simp
    rw [hsplit, List.isChain_split, List.isChain_pair, Within]
  rw [holds_concat hx]
  simp only [hfilter, List.map_append, List.map_cons, List.map_nil, hchain]
  constructor
  · rintro ⟨before, issue, after, hlog, hissue, hlast, hgaps, hle⟩
    exact ⟨⟨before, issue, after, hlog, hissue, hlast, hgaps⟩, hle⟩
  · rintro ⟨⟨before, issue, after, hlog, hissue, hlast, hgaps⟩, hle⟩
    exact ⟨before, issue, after, hlog, hissue, hlast, hgaps, hle⟩

theorem holds_concat_of_other (hx : ∀ server', ¬ x.Issues again a server')
    (hother : x.refreshes a server = false) :
    Holds again lifetime (log ++ [x]) a server t ↔ Holds again lifetime log a server t := by
  have hfilter : ∀ after : List Receipt, (after ++ [x]).filter (Receipt.refreshes a server)
      = after.filter (Receipt.refreshes a server) := by
    intro after
    rw [List.filter_append, List.filter_cons_of_neg (Bool.eq_false_iff.mp hother), List.filter_nil,
      List.append_nil]
  rw [holds_concat hx]
  simp only [hfilter]
  rfl

/-! ### The log and the ledger -/

section Receipt

variable {h : Host} {datagram : Bytes}

theorem not_issues_of_not_isRequest (hrequest : Token.isRequest datagram = false)
    (server : Int32) : ¬ (h.receipt now datagram a).Issues again a server := by
  rintro ⟨⟨-, htrue, -⟩, -⟩
  rw [receipt, hrequest] at htrue
  cases htrue

theorem not_issues_of_no_reply (hreplies : (h.answer now datagram a).1 = []) (server : Int32) :
    ¬ (h.receipt now datagram a).Issues again a server := by
  rintro ⟨⟨-, -, client, hreply⟩, -⟩
  rw [receipt, hreplies] at hreply
  cases hreply

theorem refreshes_receipt : (h.receipt now datagram a).refreshes a server = true ↔
    h.drops = false ∧ (Token.isRequest datagram = true ∨ Packet.Carries server datagram) := by
  rw [Receipt.refreshes, Bool.and_eq_true, Bool.and_eq_true, Bool.or_eq_true, decide_eq_true_iff,
    decide_eq_true_iff, Bool.not_eq_true']
  exact ⟨fun hr => ⟨hr.1.2, hr.2⟩, fun hr => ⟨⟨rfl, hr.1⟩, hr.2⟩⟩

end Receipt

/-- A sound host whose ledger agrees, from now on, with what the log tells. -/
structure Recorded (role : Role) (settings : Settings) (log : List Receipt) (now : Time)
    (h : Host) : Prop extends Sound role settings h where
  holds : ∀ again a server t, now ≤ t →
    (Holds again settings.tokenLifetime log a server t ↔ h.ledger.held? a t = some server)

namespace Recorded

variable {role : Role} {settings : Settings} {h : Host} {datagram : Bytes}

theorem new (role : Role) (settings : Settings) (supply : Token.Supply) :
    Recorded role settings [] 0 (.new role settings supply) where
  toSound := .new role settings supply
  holds again a server t _ := by
    refine ⟨fun h => absurd h holds_nil, fun h => ?_⟩
    cases h

theorem later (hh : Recorded role settings log now h) (hle : now ≤ t) :
    Recorded role settings log t h :=
  ⟨hh.toSound, fun again a server u hu => hh.holds again a server u (Nat.le_trans hle hu)⟩

theorem holds_request {client : Int32} (hh : Recorded role settings log now h)
    (hdrops : h.drops = false) (hrequest : Token.isRequest datagram = true)
    (hanswer : h.answer now datagram a =
      (((h.ledger.issue a client now).1.map (Token.responseFrame client)).toList,
        { h with ledger := (h.ledger.issue a client now).2, stats := h.stats.note .token }))
    (hle : now ≤ t) :
    Holds again settings.tokenLifetime (log ++ [h.receipt now datagram a]) a server t ↔
      (h.ledger.issue a client now).2.held? a t = some server := by
  have hgrants : ∀ s, (h.receipt now datagram a).Grants a s ↔
      (h.ledger.issue a client now).1 = some s := by
    intro s
    rw [Receipt.Grants, receipt, hanswer]
    constructor
    · rintro ⟨-, -, client', hreplies⟩
      exact eq_some_of_replies hreplies
    · intro hissued
      exact ⟨rfl, hrequest, client, by rw [hissued]; rfl⟩
  rw [hh.ledger.held?_issue a client hle, hh.lifetime, Option.ite_none_right_eq_some, and_comm]
  by_cases hissues : ∃ s, (h.receipt now datagram a).Issues again a s
  · obtain ⟨s, hissues⟩ := hissues
    rw [holds_concat_of_issue hissues, (hgrants s).mp hissues.1, Option.some_inj]
    rfl
  · have hnot := not_exists.mp hissues
    have hrefresh : (h.receipt now datagram a).refreshes a server = true :=
      refreshes_receipt.mpr ⟨hdrops, .inl hrequest⟩
    rw [holds_concat_of_refresh hnot hrefresh]
    refine and_congr_left' ((hh.holds again a server now (Nat.le_refl now)).trans ?_)
    refine ⟨fun hheld => Token.Ledger.issue_of_held hheld client, fun hissued => ?_⟩
    -- What is given and was not drawn was held before.
    have hdrawn : ¬ h.ledger.held? a now = none := fun hnone => by
      have hfresh := (hh.ledger.drawn_issue a client now).mpr ⟨hnone, by rw [hissued]; rfl⟩
      refine hnot server ⟨(hgrants server).mpr hissued, .inr ?_⟩
      rw [receipt, hanswer]
      exact decide_eq_true hfresh
    obtain ⟨held, hheld⟩ := Option.ne_none_iff_exists'.mp hdrawn
    rw [Token.Ledger.issue_of_held hheld client] at hissued
    rw [hheld, hissued]

theorem holds_followUp {server' client : Int32} (hh : Recorded role settings log now h)
    (hdrops : h.drops = false) (htokens : Packet.requestTokens datagram = .ok (server', client))
    (hle : now ≤ t) :
    Holds again settings.tokenLifetime (log ++ [h.receipt now datagram a]) a server t ↔
      (h.ledger.validate a server' now).2.held? a t = some server := by
  have hcarries : Packet.Carries server' datagram :=
    Packet.carries_iff_requestTokens.mpr ⟨client, htokens⟩
  have hrequest := hcarries.isRequest_eq_false
  have hnot : ∀ s, ¬ (h.receipt now datagram a).Issues again a s :=
    not_issues_of_not_isRequest hrequest
  have hlater : h.ledger.held? a t = some server → h.ledger.held? a now = some server :=
    fun hheld => Token.Ledger.held?_of_le hheld hle
  by_cases hserver : server' = server
  · subst hserver
    have hrefresh : (h.receipt now datagram a).refreshes a server' = true :=
      refreshes_receipt.mpr ⟨hdrops, .inr hcarries⟩
    have hbefore := hh.holds again a server' now (Nat.le_refl now)
    refine ((holds_concat_of_refresh hnot hrefresh).trans (and_congr_left' hbefore)).trans ?_
    change h.ledger.held? a now = some server' ∧ t ≤ now + settings.tokenLifetime ↔ _
    by_cases hheld : h.ledger.held? a now = some server'
    · rw [Token.Ledger.held?_validate hheld, hh.lifetime]
      split_ifs with hspan
      · exact ⟨fun _ => rfl, fun _ => ⟨hheld, hspan⟩⟩
      · exact ⟨fun hboth => absurd hboth.2 hspan, fun hnone => (nomatch hnone)⟩
    · rw [Token.Ledger.validate_of_not_held hheld]
      exact ⟨fun hboth => absurd hboth.1 hheld, fun hheld' => absurd (hlater hheld') hheld⟩
  · have hother : (h.receipt now datagram a).refreshes a server = false := by
      apply Bool.eq_false_iff.mpr
      intro hrefresh
      rcases (refreshes_receipt.mp hrefresh).2 with hrequest' | hcarries'
      · exact absurd hrequest' (Bool.eq_false_iff.mp hrequest)
      · exact hserver (hcarries.eq hcarries')
    rw [holds_concat_of_other hnot hother, hh.holds again a server t hle]
    by_cases hheld : h.ledger.held? a now = some server'
    · rw [Token.Ledger.held?_validate hheld]
      have hleft : ¬ h.ledger.held? a t = some server := fun hheld' =>
        hserver (Option.some.inj (hheld.symm.trans (hlater hheld')))
      refine ⟨fun hheld' => absurd hheld' hleft, fun hright => ?_⟩
      split_ifs at hright
      exact absurd (Option.some.inj hright) hserver
    · rw [Token.Ledger.validate_of_not_held hheld]

theorem holds_unanswered (hh : Recorded role settings log now h)
    (hreplies : (h.answer now datagram a).1 = [])
    (hother : ¬ (h.receipt now datagram a).refreshes a server = true) (hle : now ≤ t) :
    Holds again settings.tokenLifetime (log ++ [h.receipt now datagram a]) a server t ↔
      h.ledger.held? a t = some server := by
  rw [← hh.holds again a server t hle]
  exact holds_concat_of_other (not_issues_of_no_reply hreplies) (Bool.eq_false_iff.mpr hother)

theorem holds_answer (hh : Recorded role settings log now h) (hle : now ≤ t) :
    Holds again settings.tokenLifetime (log ++ [h.receipt now datagram a]) a server t ↔
      (h.answer now datagram a).2.ledger.held? a t = some server := by
  have hreaction := h.reaction now datagram a
  generalize hafter : h.answer now datagram a = after at hreaction
  cases hreaction with
  | lost hdrops =>
    refine hh.holds_unanswered (by rw [hafter]) (fun hrefresh => ?_) hle
    rw [(refreshes_receipt.mp hrefresh).1] at hdrops
    cases hdrops
  | requested hdrops hrequest => exact hh.holds_request hdrops hrequest hafter hle
  | asked hdrops htokens => exact hh.holds_followUp hdrops htokens hle
  | refused hdrops htokens => exact hh.holds_followUp hdrops htokens hle
  | unread hdrops hrequest hcarries =>
    refine hh.holds_unanswered (by rw [hafter]) (fun hrefresh => ?_) hle
    rcases (refreshes_receipt.mp hrefresh).2 with hrequest' | hcarries'
    · exact absurd hrequest' (Bool.eq_false_iff.mp hrequest)
    · exact hcarries server hcarries'

theorem answer (hh : Recorded role settings log now h) (datagram : Bytes) (a : SocketAddress) :
    Recorded role settings (log ++ [h.receipt now datagram a]) now (h.answer now datagram a).2 where
  toSound := hh.toSound.answer now datagram a
  holds again b server t hle := by
    by_cases hb : b = a
    · subst hb
      exact hh.holds_answer hle
    · have hnot : ∀ s, ¬ (h.receipt now datagram a).Issues again b s :=
        fun _ hissues => hb hissues.1.1.symm
      have hother : (h.receipt now datagram a).refreshes b server = false := by
        apply Bool.eq_false_iff.mpr
        intro hrefresh
        simp only [Receipt.refreshes, Bool.and_eq_true, decide_eq_true_eq] at hrefresh
        exact hb hrefresh.1.1.symm
      rw [holds_concat_of_other hnot hother, hh.toSound.held?_answer_of_ne hb hle]
      exact hh.holds again b server t hle

theorem take (hh : Recorded role settings log now h) (event : Event) (hle : now ≤ event.time) :
    Recorded role settings (log ++ (h.take event).1) event.time (h.take event).2 := by
  cases event with
  | datagram u source payload => exact (hh.later hle).answer payload source
  | purge u =>
    have hu := hh.later hle
    refine ⟨hh.toSound.take (.purge u), fun again a server t ht => ?_⟩
    rw [Host.take, List.append_nil, hu.holds again a server t ht]
    exact iff_of_eq (congrArg (· = some server) (hh.ledger.held?_purge a ht).symm)

theorem run {events : List Event} (hh : Recorded role settings log now h)
    (htimes : (now :: events.map Event.time ++ [t]).Pairwise (· ≤ ·)) :
    Recorded role settings (log ++ (h.run events).1) t (h.run events).2 := by
  induction events generalizing log now h with
  | nil =>
    have hle : now ≤ t := (List.pairwise_cons.mp htimes).1 t (by simp)
    rw [Host.run, List.append_nil]
    exact hh.later hle
  | cons event events ih =>
    obtain ⟨hle, hrest⟩ := List.pairwise_cons.mp htimes
    have hnext := ih (hh.take event (hle _ (by simp))) hrest
    rwa [List.append_assoc] at hnext

end Recorded

/-! ### Who is answered -/

def Stats.counter (s : Stats) : Verdict → Nat
  | .dropped => s.dropped
  | .token => s.token
  | .asked .count => s.count
  | .asked .list => s.list
  | .asked .info => s.info
  | .rejected => s.rejected

theorem Stats.counter_note (s : Stats) (v w : Verdict) :
    (s.note v).counter w = s.counter w + if v = w then 1 else 0 := by
  rcases v with _ | _ | (_ | _ | _) | _ <;> rcases w with _ | _ | (_ | _ | _) | _ <;> rfl

theorem Stats.counter_note_iff {s : Stats} {v w : Verdict} :
    (s.note v).counter w = s.counter w + 1 ↔ v = w := by
  rw [counter_note]
  split_ifs with h <;> simp [h]

section Answers

variable {role : Role} {settings : Settings} {h : Host} {datagram : Bytes} {q : Question}

def Counts (h : Host) (now : Time) (datagram : Bytes) (a : SocketAddress) (q : Question) : Prop :=
  (h.answer now datagram a).2.stats.counter (.asked q) = h.stats.counter (.asked q) + 1

/-- A datagram is counted as a question, and the role's answer to it goes back, under the two numbers
of the datagram. -/
def Answers (h : Host) (role : Role) (now : Time) (datagram : Bytes) (a : SocketAddress)
    (q : Question) : Prop :=
  h.Counts now datagram a q ∧ ∃ server client,
    Bytes.int32At? 1 datagram = some server ∧ Bytes.int32At? 5 datagram = some client ∧
      role.Tells client server q (h.answer now datagram a).1

theorem Counts.elim (hcounts : h.Counts now datagram a q) :
    h.drops = false ∧ h.role.Supports q ∧ ∃ server client,
      Packet.requestTokens datagram = .ok (server, client) ∧
      h.ledger.held? a now = some server ∧
      Question.ofBody? (datagram.drop Token.headerSize) = some q ∧
      h.role.Tells client server q (h.answer now datagram a).1 := by
  have hreaction := h.reaction now datagram a
  unfold Counts at hcounts
  generalize h.answer now datagram a = after at hreaction hcounts ⊢
  have hverdict : ∀ v, after.2.stats = h.stats.note v → v = .asked q := by
    intro v hv
    rw [hv] at hcounts
    exact Stats.counter_note_iff.mp hcounts
  cases hreaction with
  | lost => cases hverdict .dropped rfl
  | requested => cases hverdict .token rfl
  | refused | unread => cases hverdict .rejected rfl
  | @asked _ _ q' _ hdrops htokens hheld hbody hpayloads =>
    cases hverdict (.asked q') rfl
    exact ⟨hdrops, Role.supports_iff.mpr ⟨_, hpayloads⟩, _, _, htokens, hheld, hbody,
      Role.tells_of_payloads hpayloads _ _⟩

theorem Counts.answers (hcounts : h.Counts now datagram a q) :
    h.Answers h.role now datagram a q := by
  obtain ⟨-, -, server, client, htokens, -, -, htells⟩ := hcounts.elim
  obtain ⟨-, hserver, hclient⟩ := Packet.requestTokens_eq_ok_iff.mp htokens
  exact ⟨hcounts, server, client, hserver, hclient, htells⟩

theorem counts_of_held (hdrops : h.drops = false) (hsupports : h.role.Supports q)
    (hmarker : q.marker <+: datagram.drop Token.headerSize)
    (hcarries : Packet.Carries server datagram) (hheld : h.ledger.held? a now = some server) :
    h.Counts now datagram a q := by
  obtain ⟨payloads, hpayloads⟩ := Role.supports_iff.mp hsupports
  have hbody := Packet.ofBody?_eq_some_iff.mpr hmarker
  have hreaction := h.reaction now datagram a
  unfold Counts
  generalize h.answer now datagram a = after at hreaction ⊢
  cases hreaction with
  | lost hlost =>
    rw [hdrops] at hlost
    cases hlost
  | requested _ hrequest => exact absurd hrequest (Bool.eq_false_iff.mp hcarries.isRequest_eq_false)
  | asked _ _ _ hbody' _ =>
    rw [hbody, Option.some_inj] at hbody'
    subst hbody'
    exact Stats.counter_note_iff.mpr rfl
  | refused _ htokens hrefused =>
    have hserver := hcarries.eq (Packet.carries_iff_requestTokens.mpr ⟨_, htokens⟩)
    subst hserver
    rw [hrefused hheld q hbody] at hpayloads
    cases hpayloads
  | unread _ _ hnone => exact absurd hcarries (hnone server)

theorem answers_iff_held : h.Answers h.role now datagram a q ↔
    h.drops = false ∧ h.role.Supports q ∧ q.marker <+: datagram.drop Token.headerSize ∧
      ∃ server, Packet.Carries server datagram ∧ h.ledger.held? a now = some server := by
  constructor
  · rintro ⟨hcounts, -⟩
    obtain ⟨hdrops, hsupports, server, client, htokens, hheld, hbody, -⟩ := hcounts.elim
    exact ⟨hdrops, hsupports, Packet.ofBody?_eq_some_iff.mp hbody, server,
      Packet.carries_iff_requestTokens.mpr ⟨client, htokens⟩, hheld⟩
  · rintro ⟨hdrops, hsupports, hmarker, server, hcarries, hheld⟩
    exact (counts_of_held hdrops hsupports hmarker hcarries hheld).answers

theorem replies_of_not_answers (hnot : ∀ q, ¬ h.Answers h.role now datagram a q) :
    (∀ q, ¬ h.Counts now datagram a q) ∧
      ((h.answer now datagram a).1 = [] ∨
        Token.isRequest datagram = true ∧ ∃ reply, (h.answer now datagram a).1 = [reply] ∧
          reply.length = Token.responseSize ∧ reply.length ≤ datagram.length) := by
  have huncounted : ∀ q, ¬ h.Counts now datagram a q := fun q hcounts => hnot q hcounts.answers
  refine ⟨huncounted, ?_⟩
  have hreaction := h.reaction now datagram a
  unfold Counts at huncounted
  generalize h.answer now datagram a = after at hreaction huncounted ⊢
  cases hreaction with
  | lost | refused | unread => exact .inl rfl
  | asked => exact absurd (Stats.counter_note_iff.mpr rfl) (huncounted _)
  | @requested client _ hrequest =>
    have hlength : Token.responseSize ≤ datagram.length := by
      simp only [Token.isRequest, Bool.and_eq_true, decide_eq_true_eq] at hrequest
      exact hrequest.1.1
    cases hissued : (h.ledger.issue a client now).1 with
    | none => exact .inl rfl
    | some server =>
      exact .inr ⟨hrequest, Token.responseFrame client server, rfl, rfl, hlength⟩

end Answers

/-- After any run a datagram that is not lost is counted and answered as a question exactly when it
is one that the role answers and carries the token last issued to its source, refreshed ever since
before a lifetime had passed; it makes no difference whether handing a live token out again counts
as issuing it. Any other datagram brings nothing, or, if it asks for a token, one datagram that is
not longer than it. -/
theorem answers_holders (role : Role) (settings : Settings) (supply : Token.Supply)
    (events : List Event) (now : Time) (datagram : Bytes) (a : SocketAddress) (again : Bool)
    (htimes : (events.map Event.time ++ [now]).Pairwise (· ≤ ·)) :
    let log := ((Host.new role settings supply).run events).1
    let h := ((Host.new role settings supply).run events).2
    (h.drops = false → ∀ q, h.Answers role now datagram a q ↔
      role.Supports q ∧ Token.headerSize ≤ datagram.length ∧
        datagram.head? = some Token.followUpByte ∧
        q.marker <+: datagram.drop Token.headerSize ∧
        ∃ server, Bytes.int32At? 1 datagram = some server ∧
          Holds again settings.tokenLifetime log a server now) ∧
      ((∀ q, ¬ h.Answers role now datagram a q) → (∀ q, ¬ h.Counts now datagram a q) ∧
        ((h.answer now datagram a).1 = [] ∨
          Token.isRequest datagram = true ∧ ∃ reply, (h.answer now datagram a).1 = [reply] ∧
            reply.length = Token.responseSize ∧ reply.length ≤ datagram.length)) := by
  intro log h
  have hstart : (0 :: events.map Event.time ++ [now]).Pairwise (· ≤ ·) :=
    List.pairwise_cons.mpr ⟨fun _ _ => Nat.zero_le _, htimes⟩
  have hrecorded : Recorded role settings log now h := (Recorded.new role settings supply).run hstart
  have hrole : h.role = role := hrecorded.role
  refine ⟨fun hdrops q => ?_, fun hnot => replies_of_not_answers (by rwa [hrole])⟩
  have hholds : ∀ server, Holds again settings.tokenLifetime log a server now ↔
      h.ledger.held? a now = some server :=
    fun server => hrecorded.holds again a server now (Nat.le_refl now)
  rw [← hrole, answers_iff_held]
  constructor
  · rintro ⟨-, hsupports, hmarker, server, ⟨hlength, hfirst, hserver⟩, hheld⟩
    exact ⟨hsupports, hlength, hfirst, hmarker, server, hserver, (hholds server).mpr hheld⟩
  · rintro ⟨hsupports, hlength, hfirst, hmarker, server, hserver, hheld⟩
    exact ⟨hdrops, hsupports, hmarker, server, ⟨hlength, hfirst, hserver⟩, (hholds server).mp hheld⟩

def sighting : List Event :=
  let request : Bytes := [0x04, 0, 0, 0, 0, 0, 0, 5, 0, 0, 0, 1]
  [.datagram 0 (.v4 ⟨10, 0, 0, 1⟩ 40000) request,
    .datagram 9000 (.v4 ⟨10, 0, 0, 2⟩ 40000) (Token.followUpHeader 7 1 ++ Question.count.marker),
    .datagram 10000 (.v4 ⟨10, 0, 0, 1⟩ 40000) (Token.followUpHeader 7 1), .purge 35000]

/-- Thirty seconds after the last sign of life the token is still good for either question, and a
millisecond later it is not. -/
theorem answers_holder_at_limit :
    let role := Role.master [.ofSocket (.v4 ⟨1, 2, 3, 4⟩ 8303)]
    let h := ((Host.new role {} fun _ => 7).run sighting).2
    let holder := SocketAddress.v4 ⟨10, 0, 0, 1⟩ 40000
    let asks (q : Question) := Token.followUpHeader 7 1 ++ q.marker
    (h.answer 40000 (asks .count) holder).1 =
      [[0x21, 0, 0, 0, 1, 0, 0, 0, 7, 0xff, 0xff, 0xff, 0xff, 0x73, 0x69, 0x7a, 0x32, 0, 1]] ∧
    (h.answer 40000 (asks .list) holder).1 =
      [[0x21, 0, 0, 0, 1, 0, 0, 0, 7, 0xff, 0xff, 0xff, 0xff, 0x6c, 0x69, 0x73, 0x32,
        0, 0, 0, 0, 0, 0, 0, 0, 0, 0, 0xff, 0xff, 1, 2, 3, 4, 0x20, 0x6f]] ∧
    (∀ q, ¬ h.Counts 40001 (asks .count) holder q) ∧
    (h.answer 40001 (asks .count) holder).1 = [] := by
  intro role h holder asks
  have hdrops : h.drops = false := by decide +kernel
  have hlog : ((Host.new role {} fun _ => 7).run sighting).1 =
      [⟨0, holder, [0x04, 0, 0, 0, 0, 0, 0, 5, 0, 0, 0, 1], false, [Token.responseFrame 1 7], true⟩,
        ⟨9000, .v4 ⟨10, 0, 0, 2⟩ 40000, asks .count, false, [], false⟩,
        ⟨10000, holder, Token.followUpHeader 7 1, false, [], false⟩] := by decide +kernel
  have hheld : Holds false 30000 ((Host.new role {} fun _ => 7).run sighting).1 holder 7 40000 := by
    refine ⟨[], _, _, hlog, ⟨⟨rfl, by decide, 1, rfl⟩, .inr rfl⟩, by simp [Receipt.Issues], ?_⟩
    change List.IsChain (Within 30000) [0, 10000, 40000]
    simp [Within]
  have htells : ∀ q, role.Supports q → role.Tells 1 7 q (h.answer 40000 (asks q) holder).1 := by
    intro q hq
    have hearly := answers_holders role {} (fun _ => 7) sighting 40000 (asks q) holder false
      (by decide)
    have hlength : Token.headerSize ≤ (asks q).length := by cases q <;> decide
    obtain ⟨-, server, client, hserver, hclient, htells⟩ := (hearly.1 hdrops q).mpr
      ⟨hq, hlength, rfl, List.prefix_refl q.marker, 7, rfl, hheld⟩
    obtain rfl : 7 = server := Option.some.inj hserver
    obtain rfl : 1 = client := Option.some.inj hclient
    exact htells
  have hlate := answers_holders role {} (fun _ => 7) sighting 40001 (asks .count) holder false
    (by decide)
  have huncounted : ∀ q, ¬ h.Counts 40001 (asks .count) holder q := by
    intro q
    unfold Counts
    cases q <;> decide +kernel
  have hsilent := (hlate.2 fun q hanswers => huncounted q hanswers.1).2
  refine ⟨htells .count (.inl rfl), ?_, huncounted, ?_⟩
  · obtain ⟨hlength, hreplies⟩ := htells .list (.inr rfl)
    obtain ⟨reply, hreply⟩ := List.length_eq_one_iff.mp hlength
    rw [hreply] at hreplies ⊢
    exact congrArg (fun reply => [reply]) (hreplies 0 reply rfl)
  · exact hsilent.resolve_right fun hrequest => absurd hrequest.1 (by decide)

end ServerDiscovery.Host
