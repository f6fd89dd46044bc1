import ServerDiscovery.Proofs.Client.History
import ServerDiscovery.Proofs.Packet.Frame
import ServerDiscovery.Proofs.Token.Store

/-! Where the tokens of a session come from, and how long it keeps them. Whatever it holds was
granted by the endpoint it is held for; and whatever was granted is held until it is used up, so
that no second handshake is begun before then. -/

namespace ServerDiscovery

namespace Client

def Settings.validity (s : Settings) : Time := s.tokenLifetime - Token.expiryMargin

/-- What a session knows of its tokens after all that occurred in it. -/
structure Traced (s : Session) (past : List Occurrence) (m : Moment) : Prop where
  past_le : ∀ o ∈ past, o.time ≤ m.now
  granted : ∀ e t, s.tokens.token? e = some t → ∃ g, Granted past e t.client t.server g ∧
    t.expires? = some (g + s.settings.validity)
  kept : ∀ e client server g, Granted past e client server g → m.now < g + s.settings.validity →
    ∃ t x, s.tokens.token? e = some t ∧ t.expires? = some x ∧ g + s.settings.validity ≤ x

variable {s : Session} {m m' : Moment} {past os : List Occurrence}

theorem Traced.new (settings : Settings) (supply : Token.Supply) (m : Moment) :
    Traced (.new settings supply) [] m where
  past_le := by simp
  granted e t h := by simp [Session.new, Token.Store.empty, Token.Store.token?] at h
  kept e client server g h := by
    obtain ⟨o, ho, -⟩ := h.time_mem
    simp at ho

theorem Traced.later (h : Traced s past m) {t : Time} (ht : m.now ≤ t) (d : Time) :
    Traced s past ⟨t, d⟩ where
  past_le o ho := (h.past_le o ho).trans ht
  granted := h.granted
  kept e client server g hg hlt := h.kept e client server g hg (lt_of_le_of_lt ht hlt)

theorem Traced.append (h : Traced s past m) (hm : m.now ≤ m'.now)
    (htime : ∀ o ∈ os, o.time ≤ m'.now)
    (hno : ∀ before o after e client server g, os = before ++ o :: after →
      ¬ Grants (past ++ before) o e client server g) : Traced s (past ++ os) m' where
  past_le o ho := (List.mem_append.mp ho).elim (fun ho => (h.past_le o ho).trans hm) (htime o)
  granted e t ht := by
    obtain ⟨g, hg, hx⟩ := h.granted e t ht
    exact ⟨g, hg.append os, hx⟩
  kept e client server g hg hlt := by
    rcases hg.of_append with hg | ⟨before, o, after, hos, hg⟩
    · exact h.kept e client server g hg (lt_of_le_of_lt hm hlt)
    · exact absurd hg (hno before o after e client server g hos)

theorem Traced.settings_eq {s' : Session} (h : Traced s past m) (ht : s'.tokens = s.tokens)
    (hs : s'.settings = s.settings) : Traced s' past m where
  past_le := h.past_le
  granted e t := by rw [ht, hs]; exact h.granted e t
  kept e client server g := by rw [ht, hs]; exact h.kept e client server g

theorem Traced.sweep (h : Traced s past m) :
    Traced { s with tokens := (s.tokens.sweep m.now).2 } past m where
  past_le := h.past_le
  granted e t ht := h.granted e t (Token.Store.token?_sweep ht)
  kept e client server g hg hlt := by
    obtain ⟨t, x, ht, hx, hle⟩ := h.kept e client server g hg hlt
    exact ⟨t, x, Token.Store.token?_sweep_of_lt ht hx (lt_of_lt_of_le hlt hle), hx, hle⟩

theorem Traced.held (h : Traced s past m) {e : Endpoint} {client server : Int32} {g : Time}
    (hg : Granted past e client server g) (hlt : m.now < g + s.settings.validity) :
    ∃ t, (s.tokens.get e m.now).1 = some t ∧ t.isValid m.now = true := by
  obtain ⟨t, x, ht, hx, hle⟩ := h.sweep.kept e client server g hg hlt
  exact ⟨t, ht, Token.isValid_iff.mpr ⟨x, hx, lt_of_lt_of_le hlt hle⟩⟩

theorem Traced.validity_le (h : Traced s past m) {e : Endpoint}
    (hnone : (s.tokens.get e m.now).1 = none) {client server : Int32} {g : Time}
    (hg : Granted past e client server g) : g + s.settings.validity ≤ m.now := by
  by_contra hlt
  obtain ⟨t, ht, -⟩ := h.held hg (not_le.mp hlt)
  rw [ht] at hnone
  cases hnone

theorem Query.acceptToken_eq_ok_iff {lifetime now : Time} {requested t : Token} {datagram : Bytes}
    {source : SocketAddress} :
    acceptToken lifetime requested now datagram source = .ok t ↔
      datagram.length = Token.responseSize ∧ Bytes.int32At? 3 datagram = some requested.client ∧
        ∃ server, Bytes.int32At? 8 datagram = some server ∧
          t = .issued requested.client server (now + (lifetime - Token.expiryMargin)) := by
  unfold acceptToken
  cases hx : Packet.expectResponse datagram .token with
  | error e =>
    have hlen : datagram.length ≠ Token.responseSize := by
      intro hlen
      rw [Packet.expectResponse_eq_ok_iff.mpr
        (Packet.matchResponse_eq_token_iff.mpr ⟨hlen, rfl⟩)] at hx
      cases hx
    simp [wire, bind, Except.bind, hlen]
  | ok frame =>
    obtain ⟨hlen, rfl⟩ :=
      Packet.matchResponse_eq_token_iff.mp (Packet.expectResponse_eq_ok_iff.mp hx)
    simp only [wire, bind, Except.bind, Token.ofResponse, hlen, true_and]
    cases h₃ : Bytes.int32At? 3 frame with
    | none => simp
    | some client =>
      cases h₈ : Bytes.int32At? 8 frame with
      | none => simp
      | some server =>
        by_cases hc : client = requested.client
        · subst hc
          simp [Token.issued, pure, Except.pure, eq_comm]
        · simp [Token.issued, hc, throw, throwThe, MonadExceptOf.throw]

section Inquiry

variable {α : Type} {pacing : Pacing} {target : SocketAddress} {request : Bytes} {accept : Accept α}
  {r : Option (Except Failure α)} {before after : List Occurrence} {o : Occurrence}
  {e : Endpoint} {client server : Int32} {g : Time}

theorem Inquired.lastSent (h : Inquired pacing target request accept m os r m')
    (past : List Occurrence) {t : Time} {x : Reception} (hos : os = before ++ .received t x :: after) :
    lastSent (past ++ before) = some (target, request) := by
  cases before with
  | nil =>
    have ho := h.head (.received t x) (by simp [hos])
    cases ho
  | cons o before =>
    refine lastSent_append_of_some (lastSent_eq_of_forall (h.head o (by simp [hos])) ?_)
    intro t a d k ho
    have hmem : .sent t a d k ∈ os := by simp [hos, ho]
    obtain ⟨ha, hd, -⟩ := h.of_sent hmem
    exact ⟨ha, hd⟩

theorem Inquired.not_grants (h : Inquired pacing target request accept m os r m')
    (past : List Occurrence) (hne : ∀ c, (Token.requested c).requestFrame ≠ request)
    (hos : os = before ++ o :: after) : ¬ Grants (past ++ before) o e client server g := by
  rintro ⟨target', payload, source, rfl, hlast, -⟩
  rw [h.lastSent past hos, Option.some.injEq, Prod.mk.injEq] at hlast
  exact hne client hlast.2.symm

theorem Grants.ends {c : Int32} {lifetime : Time} {r : Option (Except Failure Token)}
    (h : Inquired pacing target (Token.requested c).requestFrame
      (Query.acceptToken lifetime (.requested c)) m os r m')
    (hos : os = before ++ o :: after) (hg : Grants (past ++ before) o e client server g) :
    after = [] ∧ ∀ f, r ≠ some (.error f) := by
  obtain ⟨target, payload, source, rfl, hlast, htarget, hsource, hlen, h₃, h₈⟩ := hg
  rw [h.lastSent past hos, Option.some.injEq, Prod.mk.injEq] at hlast
  obtain ⟨rfl, hframe⟩ := hlast
  obtain rfl : client = c := (Token.requestFrame_injective hframe).symm
  have hok : Query.acceptToken lifetime (.requested client) g payload source = .ok _ :=
    Query.acceptToken_eq_ok_iff.mpr ⟨hlen, h₃, server, h₈, rfl⟩
  obtain ⟨hnil, hr⟩ := h.last before g payload source after _ hos
    (decide_eq_true (hsource.trans htarget.symm)) hok
  exact ⟨hnil, fun f hf => by cases hr _ hf⟩

end Inquiry

theorem Traced.silent (h : Traced s past m) {target : SocketAddress} {datagram : Bytes}
    (hlast : lastSent past = some (target, datagram))
    (hne : ∀ c, (Token.requested c).requestFrame ≠ datagram) (hs : Silent os) (hm : m.now ≤ m'.now)
    (htime : ∀ o ∈ os, o.time ≤ m'.now) : Traced s (past ++ os) m' := by
  apply h.append hm htime
  rintro before o after e client server g rfl ⟨_, _, _, -, hsent, -⟩
  have hbefore : Silent before := fun t a d k ho => hs t a d k (List.mem_append_left _ ho)
  rw [lastSent_append_silent past hbefore, hlast, Option.some.injEq, Prod.mk.injEq] at hsent
  exact hne client hsent.2.symm

theorem Traced.grant (h : Traced s past m) {o : Occurrence} {e : Endpoint} {client server : Int32}
    {x : Time} (hg : Grants past o e client server m.now)
    (hx : m.now + s.settings.validity = x) :
    Traced { s with tokens := s.tokens.insert e (.issued client server x) m.now }
      (past ++ [o]) m := by
  have hgranted := Granted.concat hg
  obtain ⟨target, payload, source, rfl, -, -, hsource, -⟩ := hg
  refine ⟨?_, ?_, ?_⟩
  · intro o ho
    rcases List.mem_append.mp ho with ho | ho
    · exact h.past_le o ho
    · rw [List.mem_singleton.mp ho]
      exact le_rfl
  · intro e' t ht
    rcases Token.Store.token?_insert ht with ⟨rfl, rfl⟩ | ht
    · exact ⟨m.now, hgranted, by rw [Token.expires?_issued, hx]⟩
    · obtain ⟨g, hg, hx⟩ := h.granted e' t ht
      exact ⟨g, hg.append _, hx⟩
  · intro e' c v g hg hlt
    have hself : m.now < x → (s.tokens.insert e (.issued client server x) m.now).token? e =
      some (.issued client server x) := Token.Store.token?_insert_self (Token.expires?_issued ..)
    rcases hg.of_concat with hold | ⟨_, _, _, ho, -, -, hsource', -⟩
    · -- An older grant of the same endpoint is not good for longer than the new token.
      obtain ⟨t, y, ht, hy, hle⟩ := h.sweep.kept e' c v g hold hlt
      obtain ⟨o, ho, rfl⟩ := hold.time_mem
      by_cases he : e' = e
      · subst he
        have hgx : o.time + s.settings.validity ≤ x := by
          rw [← hx]
          exact Nat.add_le_add_right (h.past_le o ho) _
        exact ⟨_, x, hself (lt_of_lt_of_le hlt hgx), Token.expires?_issued .., hgx⟩
      · exact ⟨t, y, (Token.Store.token?_insert_of_ne he).trans ht, hy, hle⟩
    · cases ho
      obtain rfl : e' = e := hsource'.symm.trans hsource
      exact ⟨_, x, hself (lt_of_lt_of_eq hlt hx), Token.expires?_issued .., hx.le⟩

/-- A token request may be sent to an endpoint once all that it granted is used up. -/
def RequestDue (settings : Settings) (past : List Occurrence) (t : Time) (target : SocketAddress)
    (datagram : Bytes) : Prop :=
  ∃ client, datagram = (Token.requested client).requestFrame ∧
    ∀ c v g, Granted past (.ofSocket target) c v g → g + settings.validity ≤ t

namespace Query

theorem always_handshake {a : SocketAddress} {c : Int32} (patience : Nat) (h : Traced s past m)
    (hdue : ∀ c v g, Granted past (.ofSocket a) c v g → g + s.settings.validity ≤ m.now) :
    Always (inquire patience a (Token.requested c).requestFrame
        (acceptToken s.settings.tokenLifetime (.requested c))) s m
      (Clean fun before t target datagram =>
        target = a ∧ RequestDue s.settings (past ++ before) t target datagram)
      fun r s' os m' => s' = s ∧ (∀ f, r = .error f → Traced s (past ++ os) m') ∧
        ∀ t, r = .ok t → ∃ before o server, os = before ++ [o] ∧ Traced s (past ++ before) m' ∧
          Grants (past ++ before) o (.ofSocket a) c server m'.now ∧
          t = .issued c server (m'.now + s.settings.validity) := by
  refine Always.inquire fun os r m' hi => ⟨?_, ?_⟩
  · rintro before t target datagram copies after rfl
    obtain ⟨rfl, rfl, -⟩ := hi.of_sent (List.mem_append_right _ List.mem_cons_self)
    refine ⟨rfl, c, rfl, fun c' v g hg => ?_⟩
    -- A grant within the handshake would have ended it before this copy.
    rcases hg.of_append with hg | ⟨before', o, after', rfl, hg'⟩
    · exact (hdue c' v g hg).trans (hi.time_mem _ (List.mem_append_right _ List.mem_cons_self)).1
    · have hnil := (hg'.ends hi (by rw [List.append_assoc, List.cons_append])).1
      simp at hnil
  · rintro x rfl
    refine ⟨rfl, ?_, ?_⟩
    · rintro f rfl
      exact h.append hi.now_le (fun o ho => (hi.time_mem o ho).2)
        fun before o after e c' v g hos hg => (hg.ends hi hos).2 f rfl
    · rintro t rfl
      obtain ⟨before, payload, source, rfl, hsource, hok⟩ := hi.settled t rfl
      obtain ⟨hlen, h₃, server, h₈, rfl⟩ := acceptToken_eq_ok_iff.mp hok
      refine ⟨before, _, server, rfl, ?_, ⟨a, payload, source, rfl, hi.lastSent past rfl, rfl,
        of_decide_eq_true hsource, hlen, h₃, h₈⟩, rfl⟩
      refine h.append hi.now_le (fun o ho => (hi.time_mem o (List.mem_append_left _ ho)).2) ?_
      rintro before' o after' e c' v g rfl hg
      have hnil := (hg.ends hi (by rw [List.append_assoc, List.cons_append])).1
      simp at hnil

theorem always_token {a : SocketAddress} (patience : Nat) (h : Traced s past m)
    (ha : s.target = some a) :
    Always (token patience) s m
      (Clean fun before t target datagram =>
        target = a ∧ RequestDue s.settings (past ++ before) t target datagram)
      fun r s' os m' => Traced s' (past ++ os) m' ∧ s'.settings = s.settings ∧ s'.target = some a ∧
        ∀ t, r = .ok t → ∃ g, Granted (past ++ os) (.ofSocket a) t.client t.server g ∧
          t.expires? = some (g + s.settings.validity) := by
  refine .target_bind ha (.heldToken_bind ?_)
  have hsweep : Traced { s with tokens := (s.tokens.get (.ofSocket a) m.now).2 } past m := h.sweep
  cases hheld : (s.tokens.get (.ofSocket a) m.now).1 with
  | some t =>
    refine .pure .nil ⟨by simpa using hsweep, rfl, ha, ?_⟩
    rintro _ ⟨⟩
    simpa using hsweep.granted _ t hheld
  | none =>
    have hdrawn : Traced { s with
        drawn := s.drawn + 1, tokens := (s.tokens.get (.ofSocket a) m.now).2 } past m :=
      hsweep.settings_eq rfl rfl
    refine .modifyGet_bind (.get_bind ?_)
    refine (always_handshake patience hdrawn fun c v g hg => h.validity_le hheld hg).bind ?_ ?_
    · rintro t s₁ os m₁ hclean ⟨rfl, -, hok⟩
      obtain ⟨before, o, server, rfl, htraced, hgrants, rfl⟩ := hok t rfl
      refine .clock_bind (.modifyGet_bind (.pure (by simpa using hclean) ⟨?_, rfl, ha, ?_⟩))
      · simpa using htraced.grant hgrants rfl
      · rintro _ ⟨⟩
        exact ⟨m₁.now, by simpa using Granted.concat hgrants, rfl⟩
    · rintro f s₁ os m₁ ⟨rfl, herr, -⟩
      exact ⟨herr f rfl, rfl, ha, by simp⟩

end Query
end Client
end ServerDiscovery
