import ServerDiscovery.Proofs.Client.Provenance

/-! Whether a token can expire under way. A session stops building datagrams with a token one margin
before the token dies, but goes on copying what it has built for the whole budget of an inquiry. So
the margin suffices just for budgets that are no longer. -/

namespace ServerDiscovery.Client

open Dialogue

def Alive (settings : Settings) (past : List Occurrence) (t : Time) (target : SocketAddress)
    (datagram : Bytes) : Prop :=
  ∀ server client rest, datagram = Token.followUpHeader server client ++ rest →
    ∃ g, Granted past (.ofSocket target) client server g ∧ t < g + settings.tokenLifetime

/-- Every copy of every follow-up in every history is alive when it is sent. -/
def NeverExpires (settings : Settings) : Prop :=
  ∀ entries, Observed settings entries → Throughout (fun es e =>
    Clean (fun before t target datagram => Alive settings (log es ++ before) t target datagram)
      e.occurrences) entries

variable {settings : Settings} {past before : List Occurrence} {t : Time} {target : SocketAddress}
  {datagram : Bytes}

theorem Proper.alive {a : SocketAddress} (h : Proper settings a past before t target datagram)
    (hL : Token.expiryMargin < settings.tokenLifetime)
    (hb : settings.pacing.budget ≤ Token.expiryMargin + 1 ∨ settings.pacing.firstWindow = 0) :
    Alive settings (past ++ before) t target datagram := by
  rintro server client rest rfl
  obtain ⟨rfl, ⟨c, hc, -⟩ | ⟨granted, built, hfollow, hpaced⟩⟩ := h
  · exact absurd hc.symm (Token.requestFrame_ne_followUp _ _ _ _)
  · obtain ⟨-, -, hlt, server', client', question, hg, hframe⟩ := hfollow
    obtain ⟨rfl, rfl⟩ := Token.followUpHeader_inj (Token.followUpHeader_append_inj hframe).1
    refine ⟨granted, hg, ?_⟩
    obtain ⟨-, hbudget, hstill⟩ := hpaced
    simp only [Settings.validity] at hlt
    -- Either all copies are sent within the margin, or all at the moment of building.
    rcases hb with hb | hb
    · lia
    · have := hstill hb
      lia

theorem neverExpires_of_budget_le (hL : Token.expiryMargin < settings.tokenLifetime)
    (hb : settings.pacing.budget ≤ Token.expiryMargin + 1 ∨ settings.pacing.firstWindow = 0) :
    NeverExpires settings := by
  intro entries h es₁ e es₂ hsplit
  refine (h.sound es₁ e es₂ hsplit).1.mono ?_
  rintro before t target datagram ⟨a, -, hp⟩
  exact hp.alive hL hb

section Overdue

/-! A token is granted at once, used at the last moment, and what it was used for is then copied
whenever the target sends rubbish. -/

variable {α : Type} {accept : Accept α} {x : Inquiry}

def Junk (os : List Occurrence) : Prop :=
  ∀ t payload source, .received t (.datagram payload source) ∈ os → payload = []

theorem Junk.cons_received {os : List Occurrence} (h : Junk os) (t : Time) (source : SocketAddress) :
    Junk (.received t (.datagram [] source) :: os) := by
  intro t' payload source' ho
  rcases List.mem_cons.mp ho with ho | ho
  · cases ho
    rfl
  · exact h t' payload source' ho

theorem Junk.cons_sent {os : List Occurrence} (h : Junk os) (t : Time) (target : SocketAddress)
    (datagram : Bytes) (copies : Nat) : Junk (.sent t target datagram copies :: os) := by
  intro t' payload source' ho
  exact h t' payload source' (by simpa using ho)

theorem Junk.granted_eq {past os : List Occurrence} (h : Junk os) {e : Endpoint}
    {client server : Int32} {g t : Time} (hpast : ∀ o ∈ past, o.time = t)
    (hg : Granted (past ++ os) e client server g) : g = t := by
  obtain ⟨before, o, after, hsplit, -, payload, source, rfl, -, -, -, hlen, -⟩ := hg
  have hmem : .received g (.datagram payload source) ∈ past ++ os := by simp [hsplit]
  rcases List.mem_append.mp hmem with hmem | hmem
  · exact hpast _ hmem
  · rw [h g payload source hmem] at hlen
    cases hlen

theorem Inquiry.course_attempt {wait : Dialogue (Except Failure α)} {m m' : Moment}
    {os : List Occurrence} {r : Option (Except Failure α)} (hleft : x.left m.now ≠ 0)
    (h : Course wait ⟨m.now, m.now + min x.window (x.left m.now)⟩ os r m') :
    Course (x.attempt wait) m (.sent m.now x.target x.request x.burst :: os) r m' := by
  refine .clock ?_
  rw [if_neg hleft]
  exact .readUntil (.writeUntil (.send h))

theorem Inquiry.course_await_reject (hreject : ∀ t source, ∃ f, accept t [] source = .error f)
    {n : Nat} {t deadline : Time} {os : List Occurrence} {m' : Moment} (hdeadline : t < deadline)
    (hleft : x.left (t + 1) ≠ 0)
    (h : Course (await accept n (x.backOff (t + 1)))
      ⟨t + 1, t + 1 + min (x.backOff (t + 1)).window (x.left (t + 1))⟩ os none m') :
    Course (await accept (n + 1) x) ⟨t, deadline⟩ (.received (t + 1) (.datagram [] x.target) ::
      .sent (t + 1) x.target x.request (x.backOff (t + 1)).burst :: os) none m' := by
  have hjudge : x.judge accept (t + 1) (.datagram [] x.target) = .reject := by
    obtain ⟨f, hf⟩ := hreject (t + 1) x.target
    simp [judge, isFromTarget, hf]
  refine .receive _ (t + 1) (Nat.le_succ t) (le_max_of_le_right hdeadline) (by simp) (.clock ?_)
  simp only [hjudge]
  exact course_attempt hleft h

theorem Inquiry.course_await_junk (hreject : ∀ t source, ∃ f, accept t [] source = .error f) (n : Nat)
    {t deadline : Time} (hstart : x.started ≤ t) (hdeadline : t < deadline) (hw : 0 < x.window)
    (hn : t + n + 1 < x.started + x.pacing.budget) :
    ∃ os copies m', Junk os ∧
      Course (await accept (n + 1) x) ⟨t, deadline⟩
        (os ++ [.sent (t + n + 1) x.target x.request copies]) none m' := by
  -- One reception a tick; the window stays open as long as there is budget left.
  induction n generalizing x t deadline with
  | zero =>
    exact ⟨[.received (t + 1) (.datagram [] x.target)], _, _,
      Junk.cons_received (by simp [Junk]) _ _,
      course_await_reject hreject hdeadline (left_ne_zero (by lia) (by lia)) (.broken _ _)⟩
  | succ n ih =>
    have hleft : x.left (t + 1) ≠ 0 := left_ne_zero (by lia) (by lia)
    have hwindow := backOff_window_pos hw hleft
    have hlater : t + 1 < t + 1 + min (x.backOff (t + 1)).window (x.left (t + 1)) := by lia
    obtain ⟨os, copies, m', hjunk, hc⟩ := ih (x := x.backOff (t + 1)) (t := t + 1)
      (hstart.trans (Nat.le_succ t)) hlater hwindow
      (by simp only [backOff_started, backOff_pacing]; lia)
    refine ⟨.received (t + 1) (.datagram [] x.target) ::
      .sent (t + 1) x.target x.request (x.backOff (t + 1)).burst :: os, copies, m',
      (hjunk.cons_sent _ _ _ _).cons_received _ _, ?_⟩
    have hstep := course_await_reject hreject hdeadline hleft hc
    rwa [show t + 1 + n + 1 = t + (n + 1) + 1 by lia] at hstep

variable {s : Session} {m m' : Moment} {a : SocketAddress} {os : List Occurrence}

theorem course_inquire {pacing : Pacing} {target : SocketAddress} {request : Bytes} {patience : Nat}
    {r : Option (Except Failure α)} (hbudget : pacing.budget ≠ 0)
    (h : Course (Inquiry.await accept patience (Inquiry.start target request pacing m.now))
      ⟨m.now, m.now + min pacing.firstWindow pacing.budget⟩ os r m') :
    Course (inquire pacing target request accept patience) m (.sent m.now target request 1 :: os)
      r m' := by
  have hleft : (Inquiry.start target request pacing m.now).left m.now = pacing.budget := by
    simp [Inquiry.left, Inquiry.start]
  refine .clock (Inquiry.course_attempt ?_ ?_)
  · rwa [hleft]
  · rwa [hleft]

theorem Query.course_requestFrame (ha : s.target = some a) {t : Token}
    (hheld : (s.tokens.get (.ofSocket a) m.now).1 = some t) (hv : t.isValid m.now = true)
    (patience : Nat) (q : Question) :
    Course ((requestFrame patience q).dialogue s) m []
      (some (.ok (Token.followUpHeader t.server t.client ++ q.marker),
        { s with tokens := (s.tokens.get (.ofSocket a) m.now).2 })) m := by
  have htoken : Course ((token patience).dialogue s) m []
      (some (.ok t, { s with tokens := (s.tokens.get (.ofSocket a) m.now).2 })) m := by
    rw [token, dialogue_target_bind ha, dialogue_heldToken_bind]
    refine .clock ?_
    rw [hheld]
    exact .finish _ _
  apply course_bind htoken
  rw [dialogue_clock_bind]
  refine .clock ?_
  rw [dialogue_ofExcept, Packet.request_eq_ok_iff.mpr ⟨hv, rfl⟩]
  exact .finish _ _

theorem Query.course_record (ha : s.target = some a) {t : Token} {patience : Nat}
    (hheld : (s.tokens.get (.ofSocket a) m.now).1 = some t) (hv : t.isValid m.now = true)
    (h : Course (Client.inquire s.settings.pacing a
      (Token.followUpHeader t.server t.client ++ Question.info.marker) acceptRecord patience)
      m os none m') : Course ((record patience).dialogue s) m os none m' := by
  rw [record, dialogue_target_bind ha]
  exact course_bind (course_requestFrame ha hheld hv patience .info) (h.bind_none _)

theorem Query.course_inquire_answered {target source : SocketAddress} {request payload : Bytes}
    {y : α} (hbudget : s.settings.pacing.budget ≠ 0)
    (hfrom : Endpoint.ofSocket source = Endpoint.ofSocket target)
    (hok : accept m.now payload source = .ok y) :
    Course ((inquire 1 target request accept).dialogue s) m
      [.sent m.now target request 1, .received m.now (.datagram payload source)]
      (some (.ok y, s)) ⟨m.now, m.now + min s.settings.pacing.firstWindow s.settings.pacing.budget⟩ := by
  have hjudge := Inquiry.judge_datagram (x := .start target request s.settings.pacing m.now)
    (decide_eq_true hfrom) hok
  have hawait : ∀ d, Course (Inquiry.await accept 1 (.start target request s.settings.pacing m.now))
      ⟨m.now, d⟩ [.received m.now (.datagram payload source)] (some (.ok y)) ⟨m.now, d⟩ := by
    intro d
    refine .receive _ m.now le_rfl (le_max_left _ _) (by simp) (.clock ?_)
    simp only [hjudge]
    exact .finish _ _
  exact (course_inquire hbudget (hawait _)).bind _ rfl (.finish _ _)

theorem Query.course_token (ha : s.target = some a)
    (hnone : (s.tokens.get (.ofSocket a) m.now).1 = none)
    (hbudget : s.settings.pacing.budget ≠ 0) (server : Int32) {x : Time}
    (hx : m.now + s.settings.validity = x) :
    Course ((token 1).dialogue s) m
      [.sent m.now a (Token.requested (s.supply s.drawn)).requestFrame 1,
        .received m.now (.datagram (Token.responseFrame (s.supply s.drawn) server) a)]
      (some (.ok (.issued (s.supply s.drawn) server x), { s with
        drawn := s.drawn + 1
        tokens := (s.tokens.get (.ofSocket a) m.now).2.insert (.ofSocket a)
          (.issued (s.supply s.drawn) server x) m.now }))
      ⟨m.now, m.now + min s.settings.pacing.firstWindow s.settings.pacing.budget⟩ := by
  obtain ⟨hlen, h₃, h₈⟩ := Token.responseFrame_fields (s.supply s.drawn) server
  have haccept : acceptToken s.settings.tokenLifetime (.requested (s.supply s.drawn)) m.now _ a =
    .ok _ := acceptToken_eq_ok_iff.mpr ⟨hlen, h₃, server, h₈, rfl⟩
  rw [token, dialogue_target_bind ha, dialogue_heldToken_bind, ← hx]
  refine .clock ?_
  rw [hnone]
  exact course_bind (course_inquire_answered (s := { s with
    drawn := s.drawn + 1, tokens := (s.tokens.get (.ofSocket a) m.now).2 }) hbudget rfl haccept)
    (.clock (.finish _ _))

theorem exists_history_token (settings : Settings) (hbudget : settings.pacing.budget ≠ 0)
    (a : SocketAddress) :
    ∃ es s d client server, History settings es s ⟨0, d⟩ ∧ s.target = some a ∧
      (∀ o ∈ log es, o.time = 0) ∧ Granted (log es) (.ofSocket a) client server 0 := by
  have hopened : History settings [] (.new settings fun _ => 0) ⟨0, 0⟩ := .opened _ _
  have haimed := hopened.aim a
  have htoken := Query.course_token (m := ⟨0, 0⟩) (s := (Session.new settings fun _ => 0).aim a)
    (a := a) rfl rfl hbudget 0 rfl
  obtain ⟨hlen, h₃, h₈⟩ := Token.responseFrame_fields 0 0
  refine ⟨_, _, _, 0, 0, haimed.call .token 1 (Query.course_map Answer.token htoken), rfl, ?_, ?_⟩
  · simp [log, Occurrence.time]
  · exact ⟨[_], _, [], rfl, a, _, a, rfl, rfl, rfl, rfl, hlen, h₃, h₈⟩

theorem not_neverExpires (hL : Token.expiryMargin < settings.tokenLifetime)
    (hb : Token.expiryMargin + 1 < settings.pacing.budget) (hw : 0 < settings.pacing.firstWindow) :
    ¬ NeverExpires settings := by
  intro h
  let a : SocketAddress := .v4 ⟨10, 0, 0, 1⟩ 8303
  obtain ⟨es, s, d, client, server, hhistory, ha, hlog, hg⟩ :=
    exists_history_token settings (by lia) a
  obtain ⟨htraced, rfl⟩ := hhistory.traced
  -- The last moment at which the token is used, just before it is good no longer.
  let late := s.settings.validity - 1
  have hlate : late < s.settings.validity := by
    simp only [late, Settings.validity]
    lia
  obtain ⟨t, hheld, hv⟩ := (htraced.later (Nat.zero_le late) d).held hg (by rwa [Nat.zero_add])
  let x := Inquiry.start a (Token.followUpHeader t.server t.client ++ Question.info.marker)
    s.settings.pacing late
  have hwait : late < late + min s.settings.pacing.firstWindow s.settings.pacing.budget := by lia
  have hlong : late + Token.expiryMargin + 1 < late + s.settings.pacing.budget := by lia
  have hreject : ∀ t source, ∃ f, Query.acceptRecord t [] source = .error f :=
    fun _ _ => ⟨_, rfl⟩
  obtain ⟨os, copies, m', hjunk, hc⟩ :=
    Inquiry.course_await_junk (x := x) hreject Token.expiryMargin le_rfl hwait hw hlong
  have hrecord := Query.course_map_none Answer.record (Query.course_record (m := ⟨late, d⟩) ha
    hheld hv (course_inquire (by lia) hc))
  have hobserved := Observed.calling .record _ (hhistory.idle late (Nat.zero_le late)) hrecord
  obtain ⟨g, hg, hlt⟩ := h _ hobserved es _ [] rfl (.sent late a _ 1 :: os) _ _ _ _ _ rfl _ _ _ rfl
  obtain rfl := Junk.granted_eq (hjunk.cons_sent late a _ 1) hlog hg
  simp only [x, late, Inquiry.start, Settings.validity] at hlt
  lia

/-- A follow-up never outlives its token just when the budget is within the margin, or when an
inquiry does not wait at all. Time is in whole milliseconds, so a follow-up is built a millisecond
before the margin at the latest, and the bound adds that millisecond to it. -/
theorem neverExpires_iff (hL : Token.expiryMargin < settings.tokenLifetime) :
    NeverExpires settings ↔
      settings.pacing.budget ≤ Token.expiryMargin + 1 ∨ settings.pacing.firstWindow = 0 := by
  refine ⟨fun h => ?_, neverExpires_of_budget_le hL⟩
  by_contra hno
  rw [not_or, not_le, ← ne_eq, ← Nat.pos_iff_ne_zero] at hno
  exact not_neverExpires hL hno.1 hno.2 h

theorem neverExpires_short_budget :
    Token.expiryMargin < ({ readTimeout := 1000 } : Settings).tokenLifetime ∧
      NeverExpires { readTimeout := 1000 } :=
  ⟨by decide, (neverExpires_iff (by decide)).mpr (.inl (by decide))⟩

def silentServer : SocketAddress := .v4 ⟨10, 0, 0, 1⟩ 8303

def lateSettings : Settings := { readTimeout := 2000, writeTimeout := 2000, minTimeout := 1001 }

/-- The token is granted at 0 and dead from 16000 on; what is built with it at 14999 is copied
twice at 16000. -/
def lateEntries : List Entry :=
  [⟨.aim silentServer, none, [], some (.ok .aimed)⟩,
    ⟨.token, some silentServer, [.sent 0 silentServer (Token.requested 7).requestFrame 1,
      .received 0 (.datagram (Token.responseFrame 7 1) silentServer)],
      some (.ok (.token (.issued 7 1 15000)))⟩,
    ⟨.record, some silentServer,
      [.sent 14999 silentServer (Token.followUpHeader 1 7 ++ Question.info.marker) 1,
        .received 16000 .timedOut,
        .sent 16000 silentServer (Token.followUpHeader 1 7 ++ Question.info.marker) 2,
        .received 16999 .timedOut], some (.error .timeout)⟩]

theorem observed_lateEntries : Observed lateSettings lateEntries := by
  have hopened : History lateSettings [] (.new lateSettings fun _ => 7) ⟨0, 0⟩ := .opened _ _
  have haimed := hopened.aim silentServer
  have htoken := Query.course_token (m := ⟨0, 0⟩)
    (s := (Session.new lateSettings fun _ => 7).aim silentServer)
    (a := silentServer) rfl rfl (by decide) 1 (x := 15000) rfl
  have hlate := (haimed.call .token 1 (Query.course_map Answer.token htoken)).idle 14999 (by decide)
  obtain ⟨m', hc, -⟩ := ((Call.record.query 2).dialogue _).course_watch
    { Simulation.Script.new [] [] none with now := 14999, deadline := 1001 }
  exact .idle (hlate.call .record 2 hc)

theorem copy_outlives_token :
    Token.expiryMargin < lateSettings.tokenLifetime ∧ Observed lateSettings lateEntries ∧
      ¬ NeverExpires lateSettings := by
  refine ⟨by decide, observed_lateEntries, fun h => ?_⟩
  obtain ⟨g, hg, hlt⟩ := h _ observed_lateEntries (lateEntries.take 2) _ [] rfl
    [.sent 14999 silentServer (Token.followUpHeader 1 7 ++ Question.info.marker) 1,
      .received 16000 .timedOut] _ _ _ _ _ rfl _ _ _ rfl
  have hlog : ∀ o ∈ log (lateEntries.take 2), o.time = 0 := by
    simp [lateEntries, log, Occurrence.time]
  obtain rfl := Junk.granted_eq (by simp [Junk]) hlog hg
  exact absurd hlt (by decide)

end Overdue
end ServerDiscovery.Client
