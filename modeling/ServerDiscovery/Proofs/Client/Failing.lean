import Mathlib.Data.List.Basic
import ServerDiscovery.Proofs.Client.Provenance
import ServerDiscovery.Proofs.Token.ExpiringMap

/-! Why the calls of a session fail. What its target and the network do wrong is borne until time is
up, and a token is handed on only while it is good. So a call fails without a target, in the end of
its time, or when it is cancelled; and on its own token only where no token is ever good. -/

namespace ServerDiscovery.Client

open Dialogue

variable {settings : Settings} {target : Option SocketAddress} {s s' : Session} {m m' : Moment}
  {os : List Occurrence}

/-- A session in a call: its settings and its target stay, and its store knows when tokens
expire. -/
structure Intact (settings : Settings) (target : Option SocketAddress) (s : Session) : Prop where
  settings : s.settings = settings
  target : s.target = target
  tokens : ∃ map, Token.Store.Mirrors s.tokens map

namespace Intact

theorem new (settings : Settings) (supply : Token.Supply) :
    Intact settings none (.new settings supply) :=
  ⟨rfl, rfl, _, Token.Store.Mirrors.empty⟩

theorem aim (h : Intact settings target s) (a : SocketAddress) :
    Intact settings (some a) (s.aim a) := ⟨h.settings, rfl, h.tokens⟩

theorem draw (h : Intact settings target s) :
    Intact settings target { s with drawn := s.drawn + 1 } := ⟨h.settings, h.target, h.tokens⟩

theorem get (h : Intact settings target s) (e : Endpoint) (now : Time) :
    Intact settings target { s with tokens := (s.tokens.get e now).2 } := by
  obtain ⟨map, hmap⟩ := h.tokens
  exact ⟨h.settings, h.target, _, hmap.swept now⟩

theorem insert (h : Intact settings target s) (e : Endpoint) (t : Token) (now : Time) :
    Intact settings target { s with tokens := s.tokens.insert e t now } := by
  obtain ⟨map, hmap⟩ := h.tokens
  exact ⟨h.settings, h.target, _, hmap.insert e t now⟩

theorem isValid_of_get (h : Intact settings target s) {e : Endpoint} {now : Time} {t : Token}
    (hget : (s.tokens.get e now).1 = some t) : t.isValid now = true := by
  obtain ⟨map, hmap⟩ := h.tokens
  have hswept := hmap.lookup_swept now e
  exact (Option.filter_eq_some_iff.mp (hswept.symm.trans hget)).2

end Intact

/-- A reason for which a call that has a target may fail. -/
def Settings.Excuses (settings : Settings) (f : Failure) : Prop :=
  f = .timeout ∨ f = .cancelled ∨
    settings.tokenLifetime ≤ Token.expiryMargin ∧ f = .wire .tokenExpired

namespace Query

variable {α β : Type} {P : α → Moment → Prop} {P' : β → Moment → Prop}

/-- In every course from here the session stays intact, a failure has an excuse, and `P` holds of
what is answered at the end. -/
def Bears (settings : Settings) (target : Option SocketAddress) (q : Query α) (s : Session)
    (m : Moment) (P : α → Moment → Prop) : Prop :=
  Always q s m (fun _ => True) fun r s' _ m' => Intact settings target s' ∧
    (∀ f, r = .error f → settings.Excuses f) ∧ ∀ x, r = .ok x → P x m'

theorem Bears.bind {q : Query α} {f : α → Query β} (h : Bears settings target q s m P)
    (hf : ∀ x s₁ m₁, Intact settings target s₁ → P x m₁ →
      Bears settings target (f x) s₁ m₁ P') : Bears settings target (q >>= f) s m P' := by
  refine Always.bind h (fun x s₁ os₁ m₁ _ hq => ?_) fun e s₁ os₁ m₁ hq => ?_
  · exact hf x s₁ m₁ hq.1 (hq.2.2 x rfl)
  · exact ⟨hq.1, fun f hf => hq.2.1 f (congrArg _ (Except.error.inj hf)), nofun⟩

theorem Bears.pure (h : Intact settings target s) {x : α} (hx : P x m) :
    Bears settings target (pure x) s m P :=
  Always.pure trivial ⟨h, nofun, by rintro _ ⟨⟩; exact hx⟩

theorem bears_inquire (h : Intact settings target s) (patience : Nat) (a : SocketAddress)
    (request : Bytes) (accept : Accept α) :
    Bears settings target (inquire patience a request accept) s m fun x m' =>
      ∃ payload source, accept m'.now payload source = .ok x := by
  refine Always.inquire fun os r m' hi => ⟨trivial, fun x hx => ⟨h, fun f hf => ?_, ?_⟩⟩
  · subst hf
    rcases hi.failed f hx with rfl | rfl
    · exact .inl rfl
    · exact .inr (.inl rfl)
  · rintro y rfl
    obtain ⟨_, payload, source, -, -, haccept⟩ := hi.settled y hx
    exact ⟨payload, source, haccept⟩

variable {a : SocketAddress}

theorem bears_token (h : Intact settings (some a) s) (patience : Nat) :
    Bears settings (some a) (token patience) s m fun t m' =>
      Token.expiryMargin < settings.tokenLifetime → t.isValid m'.now = true := by
  refine .target_bind h.target (.heldToken_bind ?_)
  have hget := h.get (.ofSocket a) m.now
  cases hheld : (s.tokens.get (.ofSocket a) m.now).1 with
  | some t => exact Bears.pure hget fun _ => h.isValid_of_get hheld
  | none =>
    refine .modifyGet_bind (.get_bind ?_)
    refine Bears.bind (bears_inquire hget.draw patience a _ _) ?_
    rintro t s₁ m₁ hs₁ ⟨payload, source, haccept⟩
    refine .clock_bind (.modifyGet_bind ?_)
    refine Bears.pure (hs₁.insert (.ofSocket a) t m₁.now) fun hlong => ?_
    obtain ⟨-, -, server, -, rfl⟩ := acceptToken_eq_ok_iff.mp haccept
    have hgood : m₁.now < m₁.now + (s.settings.tokenLifetime - Token.expiryMargin) :=
      Nat.lt_add_of_pos_right (Nat.sub_pos_of_lt (h.settings ▸ hlong))
    exact Token.isValid_iff.mpr ⟨_, rfl, hgood⟩

theorem bears_requestFrame (h : Intact settings (some a) s) (patience : Nat) (q : Question) :
    Bears settings (some a) (requestFrame patience q) s m fun _ _ => True := by
  refine (bears_token h patience).bind fun t s₁ m₁ hs₁ hgood => .clock_bind ?_
  refine .ofExcept trivial ⟨hs₁, fun f hf => ?_, fun _ _ => trivial⟩
  by_cases hv : t.isValid m₁.now = true
  · rw [Packet.request_eq_ok_iff.mpr ⟨hv, rfl⟩] at hf
    cases hf
  · rw [Packet.request_of_not_isValid hv] at hf
    cases hf
    exact .inr (.inr ⟨Nat.le_of_not_lt fun hlong => hv (hgood hlong), rfl⟩)

theorem Bears.weaken {q : Query α} (h : Bears settings target q s m P) :
    Bears settings target q s m fun _ _ => True :=
  h.mono (fun _ hg => hg) fun _ _ _ _ _ hq => ⟨hq.1, hq.2.1, fun _ _ => trivial⟩

theorem bears_question (h : Intact settings (some a) s) (patience : Nat) (q : Question)
    (accept : Accept α) : Bears settings (some a)
      (requestFrame patience q >>= fun frame => inquire patience a frame accept) s m
      fun _ _ => True :=
  (bears_requestFrame h patience q).bind fun frame _ _ hs₁ _ =>
    (bears_inquire hs₁ patience a frame accept).weaken

theorem bears_servers (h : Intact settings (some a) s) (patience : Nat) :
    Bears settings (some a) (servers patience) s m fun _ _ => True := by
  have hcount : Bears settings (some a) (count patience) s m fun _ _ => True :=
    .target_bind h.target (bears_question h patience .count acceptCount)
  refine .target_bind h.target (hcount.bind fun n s₁ m₁ hs₁ _ => ?_)
  dsimp only
  split_ifs
  · exact Bears.pure hs₁ trivial
  refine (bears_requestFrame hs₁ patience .list).bind fun frame s₂ m₂ hs₂ _ => .clock_bind ?_
  refine (bears_inquire hs₂ patience a frame acceptList).bind fun first s₃ m₃ hs₃ _ => .get_bind ?_
  refine .ofDialogue fun os r m' hc => ⟨trivial, ?_⟩
  rintro x rfl
  refine ⟨hs₃, ?_, fun _ _ => trivial⟩
  rintro f rfl
  cases hc with
  | readUntil hc => exact .inr (.inl ((end_of_course_gather hc).2 f rfl))

end Query

/-- What a call comes to: only without a target does it fail for that reason, and then nothing
occurs; otherwise a failure has an excuse, and a token that is answered is good if any ever is. -/
structure Borne (settings : Settings) (target : Option SocketAddress) (r : Except Failure Answer)
    (os : List Occurrence) (m' : Moment) : Prop where
  untargeted : target = none → r = .error .noTarget ∧ os = []
  excused : target ≠ none → ∀ f, r = .error f → settings.Excuses f
  good : ∀ t, r = .ok (.token t) → Token.expiryMargin < settings.tokenLifetime →
    t.isValid m'.now = true

theorem borne_untargeted {α : Type} (h : Intact settings none s) (f : SocketAddress → Query α)
    (g : α → Answer) :
    Query.Always (g <$> (Query.target >>= f)) s m (fun _ => True) fun r s' os m' =>
      Intact settings none s' ∧ Borne settings none r os m' :=
  .map (.target_bind_of_none h.target trivial
    ⟨h, fun _ => ⟨rfl, rfl⟩, fun hne => absurd rfl hne, nofun⟩)

theorem borne_targeted {α : Type} {q : Query α} {g : α → Answer} {P : α → Moment → Prop}
    {a : SocketAddress} (h : Query.Bears settings (some a) q s m P)
    (hg : ∀ x m' t, P x m' → g x = .token t → Token.expiryMargin < settings.tokenLifetime →
      t.isValid m'.now = true) :
    Query.Always (g <$> q) s m (fun _ => True) fun r s' os m' =>
      Intact settings (some a) s' ∧ Borne settings (some a) r os m' := by
  refine .map (h.mono (fun _ hx => hx) ?_)
  rintro r s' os m' - ⟨hs', hexcused, hok⟩
  refine ⟨hs', nofun, ?_, ?_⟩
  · cases r with
    | ok x => exact fun _ => nofun
    | error f =>
      rintro - _ ⟨⟩
      exact hexcused f rfl
  · cases r with
    | ok x =>
      rintro t heq
      exact hg x m' t (hok x rfl) (Except.ok.inj heq)
    | error f => exact nofun

theorem Call.borne (c : Call) (hc : ∀ a, c ≠ .aim a) (h : Intact settings target s)
    (patience : Nat) :
    Query.Always (c.query patience) s m (fun _ => True) fun r s' os m' =>
      Intact settings target s' ∧ Borne settings target r os m' := by
  cases target with
  | none =>
    cases c with
    | aim a => exact absurd rfl (hc a)
    | token | count | record | servers => exact borne_untargeted h _ _
  | some a =>
    cases c with
    | aim b => exact absurd rfl (hc b)
    | token =>
      refine borne_targeted (Query.bears_token h patience) ?_
      rintro x m' _ hx ⟨⟩
      exact hx
    | count =>
      exact borne_targeted (.target_bind h.target (Query.bears_question h patience .count _))
        fun _ _ _ _ => nofun
    | record =>
      exact borne_targeted (.target_bind h.target (Query.bears_question h patience .info _))
        fun _ _ _ _ => nofun
    | servers => exact borne_targeted (Query.bears_servers h patience) fun _ _ _ _ => nofun

theorem History.intact {es : List Entry} (h : History settings es s m) :
    ∃ target, Intact settings target s ∧ (target = none ↔ ∀ e ∈ es, ∀ a, e.call ≠ .aim a) := by
  induction h with
  | opened supply m => exact ⟨none, .new settings supply, by simp⟩
  | idle _ _ _ ih => exact ih
  | @call es s s' m m' os r c patience _ hcourse ih =>
    obtain ⟨target, hs, htarget⟩ := ih
    simp only [List.forall_mem_append, List.forall_mem_singleton]
    by_cases haim : ∃ a, c = .aim a
    · obtain ⟨a, rfl⟩ := haim
      have hdone : Course (.finish (.ok .aimed, s.aim a)) m os (some (r, s')) m' := hcourse
      cases hdone
      exact ⟨some a, hs.aim a, nofun, fun hnone => absurd rfl (hnone.2 a)⟩
    · rw [not_exists] at haim
      obtain ⟨-, hend⟩ := c.borne haim hs patience _ _ _ hcourse
      exact ⟨target, (hend _ rfl).1, htarget.trans (and_iff_left haim).symm⟩

section Ephemeral

/-! Tokens that are never good: their lifetime is not longer than the margin. -/

variable {α β : Type} {past : List Occurrence} {a : SocketAddress} {e : Endpoint}

def Handshaken (past os : List Occurrence) (e : Endpoint) : Prop :=
  ∃ before o after client server time, os = before ++ o :: after ∧
    Grants (past ++ before) o e client server time

def OnlyAsks (os : List Occurrence) : Prop :=
  ∀ t target datagram copies, .sent t target datagram copies ∈ os →
    ∃ client, datagram = (Token.requested client).requestFrame

def Fruitless (past : List Occurrence) (e : Endpoint) (r : Except Failure α)
    (os : List Occurrence) : Prop :=
  (Handshaken past os e ∧ r = .error (.wire .tokenExpired)) ∨
    (¬ Handshaken past os e ∧ (r = .error .timeout ∨ r = .error .cancelled))

theorem lapsed_error {f : Failure}
    (h : (.error f : Except Failure α) = .error .timeout ∨
      (.error f : Except Failure α) = .error .cancelled) :
    (.error f : Except Failure β) = .error .timeout ∨
      (.error f : Except Failure β) = .error .cancelled :=
  h.imp (fun h => congrArg _ (Except.error.inj h)) fun h => congrArg _ (Except.error.inj h)

theorem Intact.get_eq_none (h : Intact settings target s) (htraced : Traced s past m)
    (hshort : settings.tokenLifetime ≤ Token.expiryMargin) (e : Endpoint) :
    (s.tokens.get e m.now).1 = none := by
  cases hget : (s.tokens.get e m.now).1 with
  | none => rfl
  | some t =>
    obtain ⟨x, hx, hlt⟩ := Token.isValid_iff.mp (h.isValid_of_get hget)
    obtain ⟨g, hg, hexpires⟩ := htraced.sweep.granted e t hget
    obtain ⟨o, ho, rfl⟩ := hg.time_mem
    have hpast := htraced.past_le o ho
    have hnever : s.settings.validity = 0 := by
      rw [h.settings, Settings.validity, Nat.sub_eq_zero_of_le hshort]
    rw [hexpires, Option.some.injEq] at hx
    change o.time + s.settings.validity = x at hx
    lia

namespace Query

def Stale (past : List Occurrence) (e : Endpoint) (r : Except Failure Token)
    (os : List Occurrence) (m' : Moment) : Prop :=
  (∃ t, r = .ok t ∧ Handshaken past os e ∧ ¬ t.isValid m'.now = true) ∨
    (¬ Handshaken past os e ∧ (r = .error .timeout ∨ r = .error .cancelled))

variable (hshort : settings.tokenLifetime ≤ Token.expiryMargin)
include hshort

theorem fruitless_handshake (past : List Occurrence) (patience : Nat) (c : Int32) :
    Always (inquire patience a (Token.requested c).requestFrame
        (acceptToken settings.tokenLifetime (.requested c))) s m OnlyAsks fun r _ os m' =>
      Stale past (.ofSocket a) r os m' := by
  refine Always.inquire fun os r m' hi => ⟨fun t target datagram copies ho => ?_, fun x hx => ?_⟩
  · exact ⟨c, (hi.of_sent ho).2.1⟩
  cases x with
  | ok t =>
    obtain ⟨before, payload, source, rfl, hsource, haccept⟩ := hi.settled t hx
    obtain ⟨hlen, h₃, server, h₈, rfl⟩ := acceptToken_eq_ok_iff.mp haccept
    refine .inl ⟨_, rfl, ⟨before, _, [], c, server, _, rfl, a, payload, source, rfl,
      hi.lastSent past rfl, rfl, of_decide_eq_true hsource, hlen, h₃, h₈⟩, fun hv => ?_⟩
    obtain ⟨x, hexpires, hlt⟩ := Token.isValid_iff.mp hv
    rw [Token.expires?_issued, Option.some.injEq, Nat.sub_eq_zero_of_le hshort] at hexpires
    exact absurd hlt (by rw [← hexpires]; exact lt_irrefl _)
  | error f =>
    refine .inr ⟨?_, (hi.failed f hx).imp (congrArg _) (congrArg _)⟩
    rintro ⟨before, o, after, client, server, time, hos, hgrants⟩
    exact (hgrants.ends hi hos).2 f hx

theorem fruitless_token (h : Intact settings (some a) s) (htraced : Traced s past m)
    (patience : Nat) : Always (token patience) s m OnlyAsks fun r _ os m' =>
      Stale past (.ofSocket a) r os m' := by
  refine .target_bind h.target (.heldToken_bind ?_)
  rw [h.get_eq_none htraced hshort]
  refine .modifyGet_bind (.get_bind ?_)
  rw [h.settings]
  refine (fruitless_handshake hshort past patience _).bind ?_ ?_
  · rintro t s₁ os₁ m₁ hasks hstale
    exact .clock_bind (.modifyGet_bind (.pure (by simpa using hasks) (by simpa using hstale)))
  · rintro f s₁ os₁ m₁ hstale
    exact hstale

theorem fruitless_requestFrame (h : Intact settings (some a) s) (htraced : Traced s past m)
    (patience : Nat) (q : Question) :
    Always (requestFrame patience q) s m OnlyAsks fun r _ os _ =>
      Fruitless past (.ofSocket a) r os := by
  refine (fruitless_token hshort h htraced patience).bind ?_ ?_
  · rintro t s₁ os₁ m₁ hasks (⟨_, ⟨⟩, hdone, hv⟩ | ⟨-, hfalse | hfalse⟩)
    · refine .clock_bind (.ofExcept (by simpa using hasks) (.inl ⟨by simpa using hdone, ?_⟩))
      rw [Packet.request_of_not_isValid hv]
      rfl
    · cases hfalse
    · cases hfalse
  · rintro f s₁ os₁ m₁ (⟨_, hfalse, -⟩ | ⟨hnone, hf⟩)
    · cases hfalse
    · exact .inr ⟨hnone, lapsed_error hf⟩

omit hshort in
theorem fruitless_bind {q : Query α} (f : α → Query β)
    (h : Always q s m OnlyAsks fun r _ os _ => Fruitless past e r os) :
    Always (q >>= f) s m OnlyAsks fun r _ os _ => Fruitless past e r os := by
  refine h.bind ?_ ?_
  · rintro x s₁ os₁ m₁ - (⟨-, hfalse⟩ | ⟨-, hfalse | hfalse⟩) <;> cases hfalse
  · rintro f s₁ os₁ m₁ (⟨hdone, hf⟩ | ⟨hnone, hf⟩)
    · cases hf
      exact .inl ⟨hdone, rfl⟩
    · exact .inr ⟨hnone, lapsed_error hf⟩

omit hshort in
theorem fruitless_map {q : Query α} (f : α → β)
    (h : Always q s m OnlyAsks fun r _ os _ => Fruitless past e r os) :
    Always (f <$> q) s m OnlyAsks fun r _ os _ => Fruitless past e r os := by
  refine .map (h.mono (fun _ hasks => hasks) ?_)
  rintro r _ os _ - (⟨hdone, rfl⟩ | ⟨hnone, rfl | rfl⟩)
  · exact .inl ⟨hdone, rfl⟩
  · exact .inr ⟨hnone, .inl rfl⟩
  · exact .inr ⟨hnone, .inr rfl⟩

theorem fruitless_question (h : Intact settings (some a) s) (htraced : Traced s past m)
    (patience : Nat) (q : Question) (f : SocketAddress → Bytes → Query α) :
    Always (Query.target >>= fun target => requestFrame patience q >>= f target) s m OnlyAsks
      fun r _ os _ => Fruitless past (.ofSocket a) r os :=
  .target_bind h.target (fruitless_bind _ (fruitless_requestFrame hshort h htraced patience q))

end Query

theorem Call.fruitless (hshort : settings.tokenLifetime ≤ Token.expiryMargin) {c : Call}
    (hc : c = .count ∨ c = .record ∨ c = .servers) (h : Intact settings (some a) s)
    (htraced : Traced s past m) (patience : Nat) :
    Query.Always (c.query patience) s m OnlyAsks fun r _ os _ =>
      Fruitless past (.ofSocket a) r os := by
  rcases hc with rfl | rfl | rfl
  · exact Query.fruitless_map _ (Query.fruitless_question hshort h htraced patience .count _)
  · exact Query.fruitless_map _ (Query.fruitless_question hshort h htraced patience .info _)
  · refine Query.fruitless_map _ (.target_bind h.target (Query.fruitless_bind _ ?_))
    exact Query.fruitless_question hshort h htraced patience .count _

end Ephemeral

/-- The reasons that a call gives, after all that a session did before it. -/
structure Surface (settings : Settings) (es : List Entry) (s : Session) (c : Call)
    (os : List Occurrence) (r : Except Failure Answer) (m' : Moment) : Prop where
  untargeted : r = .error .noTarget ↔ ∀ e ∈ es, ∀ a, e.call ≠ .aim a
  silent : r = .error .noTarget → os = []
  failed : Token.expiryMargin < settings.tokenLifetime → ∀ f, r = .error f →
    f = .noTarget ∨ f = .timeout ∨ f = .cancelled
  requests : Token.expiryMargin < settings.tokenLifetime → ∀ t, r = .ok (.token t) →
    ∀ q, ∃ frame, Packet.request t q m'.now = .ok frame
  expired : settings.tokenLifetime ≤ Token.expiryMargin → c = .count ∨ c = .record ∨ c = .servers →
    ∀ a, s.target = some a → OnlyAsks os ∧ Fruitless (log es) (.ofSocket a) r os

/-- Whatever is received and whichever sends fail, in any call of any session: without a target a
call fails at once, and with one only for want of time or because it is cancelled. But where tokens
do not live longer than the margin, a question fails on the token that was just granted. -/
theorem History.surface {es : List Entry} (h : History settings es s m) (c : Call)
    (hc : ∀ a, c ≠ .aim a) (patience : Nat) {r : Except Failure Answer}
    (hcourse : Course ((c.query patience).dialogue s) m os (some (r, s')) m') :
    Surface settings es s c os r m' := by
  obtain ⟨target, hs, htarget⟩ := h.intact
  obtain ⟨htraced, -⟩ := h.traced
  obtain ⟨-, hborne⟩ := (c.borne hc hs patience _ _ _ hcourse).2 _ rfl
  have hno : r = .error .noTarget ↔ target = none := by
    refine ⟨fun hr => ?_, fun hnone => (hborne.untargeted hnone).1⟩
    by_contra hsome
    rcases hborne.excused hsome _ hr with hfalse | hfalse | ⟨-, hfalse⟩ <;> cases hfalse
  refine ⟨hno.trans htarget, fun hr => (hborne.untargeted (hno.mp hr)).2, ?_, ?_, ?_⟩
  · intro hlong f hf
    by_cases hnone : target = none
    · rw [hno.mpr hnone, Except.error.injEq] at hf
      exact .inl hf.symm
    · rcases hborne.excused hnone f hf with hf | hf | ⟨hshort, -⟩
      · exact .inr (.inl hf)
      · exact .inr (.inr hf)
      · exact absurd hlong (Nat.not_lt_of_le hshort)
  · intro hlong t ht q
    exact ⟨_, Packet.request_eq_ok_iff.mpr ⟨hborne.good t ht hlong, rfl⟩⟩
  · intro hshort hquestion a ha
    rw [← hs.target, ha] at hs
    obtain ⟨hasks, hend⟩ := Call.fruitless hshort hquestion hs htraced patience _ _ _ hcourse
    exact ⟨hasks, hend _ rfl⟩

section Brief

open Simulation

def briefSettings : Settings := { tokenLifetime := 1000 }

def briefSession : Session := (Session.new briefSettings fun _ => 7).aim someMaster

def briefOccurrences : List Occurrence :=
  [.sent 0 someMaster (Token.requested 7).requestFrame 1,
    .received 3 (.datagram (Token.responseFrame 7 9) someMaster)]

theorem surface_brief : ∃ s' m',
    Course ((Call.count.query 1).dialogue briefSession) ⟨0, 0⟩ briefOccurrences
        (some (.error (.wire .tokenExpired), s')) m' ∧
      OnlyAsks briefOccurrences ∧
      Handshaken [] briefOccurrences (.ofSocket someMaster) := by
  have hwatch : ∃ s' k', ((Call.count.query 1).dialogue briefSession).watch
      (Script.new [⟨3, 0, .datagram (Token.responseFrame 7 9) someMaster⟩] [] none) =
        (briefOccurrences, some ((.error (.wire .tokenExpired), s'), k')) := ⟨_, _, rfl⟩
  obtain ⟨s', k', hwatch⟩ := hwatch
  obtain ⟨m', hcourse, -⟩ := ((Call.count.query 1).dialogue briefSession).course_watch
    (Script.new [⟨3, 0, .datagram (Token.responseFrame 7 9) someMaster⟩] [] none)
  rw [hwatch] at hcourse
  have haimed := (@History.opened briefSettings (fun _ => 7) ⟨0, 0⟩).aim someMaster
  have hsurface := haimed.surface .count (fun _ => nofun) 1 hcourse
  obtain ⟨hasks, hend⟩ := hsurface.expired (by decide) (.inl rfl) someMaster rfl
  refine ⟨s', m', hcourse, hasks, ?_⟩
  rcases hend with ⟨hdone, -⟩ | ⟨-, hfalse | hfalse⟩
  · exact hdone
  · cases hfalse
  · cases hfalse

end Brief
end ServerDiscovery.Client
