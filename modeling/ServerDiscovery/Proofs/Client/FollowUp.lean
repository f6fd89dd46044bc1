import ServerDiscovery.Proofs.Client.Handshake
import ServerDiscovery.Proofs.Record.Codec

/-! What a session sends once it holds a token, and what it makes of the answers. A follow-up is
built with a token that its target granted; copies of it go on while the budget lasts, and nothing
but a datagram from that target settles the call. -/

namespace ServerDiscovery.Client

/-- The datagram asks a question with a token of its target, which was good when the first copy of
the datagram was sent in this call. -/
def FollowUp (settings : Settings) (past before : List Occurrence) (t : Time)
    (target : SocketAddress) (datagram : Bytes) (granted built : Time) : Prop :=
  (firstSent datagram before).getD t = built ∧ granted ≤ built ∧
    built < granted + settings.validity ∧
    ∃ server client question, Granted (past ++ before) (.ofSocket target) client server granted ∧
      datagram = Token.followUpByte ::
        (Bytes.ofInt32 server ++ Bytes.ofInt32 client ++ Question.marker question)

/-- What a session with a target may send in a call. -/
def Proper (settings : Settings) (target : SocketAddress) (past before : List Occurrence) (t : Time)
    (target' : SocketAddress) (datagram : Bytes) : Prop :=
  target' = target ∧ (RequestDue settings (past ++ before) t target datagram ∨
    ∃ granted built, FollowUp settings past before t target datagram granted built ∧
      Paced settings.pacing built t)

def Told {α : Type} (os : List Occurrence) (target : SocketAddress) (accept : Accept α) (a : α) :
    Prop :=
  ∃ t payload source, .received t (.datagram payload source) ∈ os ∧
    Endpoint.ofSocket source = .ofSocket target ∧ accept t payload source = .ok a

variable {s : Session} {m m' : Moment} {past os : List Occurrence}

theorem Told.append_left {α : Type} {target : SocketAddress} {accept : Accept α} {a : α}
    (h : Told os target accept a) (os' : List Occurrence) : Told (os' ++ os) target accept a := by
  obtain ⟨t, payload, source, hmem, h⟩ := h
  exact ⟨t, payload, source, List.mem_append_right _ hmem, h⟩

theorem Clean.of_mem {rule : List Occurrence → Time → SocketAddress → Bytes → Prop}
    (h : Clean rule os) {t : Time} {target : SocketAddress} {datagram : Bytes} {copies : Nat}
    (ho : .sent t target datagram copies ∈ os) : ∃ before, rule before t target datagram := by
  obtain ⟨before, after, rfl⟩ := List.append_of_mem ho
  exact ⟨before, h before t target datagram copies after rfl⟩

theorem Inquired.firstSent_getD {α : Type} {pacing : Pacing} {target : SocketAddress}
    {request : Bytes} {accept : Accept α} {r : Option (Except Failure α)}
    (h : Inquired pacing target request accept m os r m') {before after : List Occurrence}
    {t : Time} {copies : Nat} (hos : os = before ++ .sent t target request copies :: after) :
    (firstSent request before).getD t = m.now := by
  cases before with
  | nil =>
    have ho := h.head (.sent t target request copies) (by simp [hos])
    cases ho
    rfl
  | cons o before =>
    rw [h.head o (by simp [hos])]
    simp [firstSent]

/-- No datagram that was sent is a copy of one that has yet to be built. -/
def Fresh (os : List Occurrence) (datagram : Bytes) : Prop :=
  ∀ t target d copies, .sent t target d copies ∈ os → d ≠ datagram

theorem Fresh.append {os' : List Occurrence} {datagram : Bytes} (h : Fresh os datagram)
    (h' : Fresh os' datagram) : Fresh (os ++ os') datagram := by
  intro t target d copies ho
  rcases List.mem_append.mp ho with ho | ho
  · exact h t target d copies ho
  · exact h' t target d copies ho

theorem Clean.fresh {a : SocketAddress} {settings : Settings}
    (h : Clean (fun before t target datagram =>
      target = a ∧ RequestDue settings (past ++ before) t target datagram) os)
    (server client : Int32) (rest : Bytes) :
    Fresh os (Token.followUpHeader server client ++ rest) := by
  intro t target d copies ho
  obtain ⟨before, -, c, rfl, -⟩ := h.of_mem ho
  exact Token.requestFrame_ne_followUp _ _ _ _

theorem Clean.proper {a : SocketAddress} {settings : Settings} (sofar : List Occurrence)
    (h : Clean (fun before t target datagram =>
      target = a ∧ RequestDue settings (past ++ sofar ++ before) t target datagram) os) :
    Clean (fun before t target datagram =>
      Proper settings a past (sofar ++ before) t target datagram) os := by
  refine h.mono ?_
  rintro before t target datagram ⟨rfl, hdue⟩
  exact ⟨rfl, .inl (by rwa [← List.append_assoc])⟩

namespace Query

variable {a : SocketAddress} {sofar : List Occurrence}

theorem always_ask {α : Type} {accept : Accept α} {client server : Int32} {g : Time}
    (patience : Nat) (q : Question) (h : Traced s (past ++ sofar) m)
    (hfresh : Fresh sofar (Token.followUpHeader server client ++ q.marker))
    (hg : Granted (past ++ sofar) (.ofSocket a) client server g)
    (hlt : m.now < g + s.settings.validity) :
    Always (inquire patience a (Token.followUpHeader server client ++ q.marker) accept) s m
      (Clean fun before t target datagram => Proper s.settings a past (sofar ++ before) t target
        datagram)
      fun r s' os m' => s' = s ∧ Traced s (past ++ (sofar ++ os)) m' ∧
        (∀ t target d copies, .sent t target d copies ∈ os →
          d = Token.followUpHeader server client ++ q.marker) ∧
        ∀ x, r = .ok x → Told os a accept x ∧ lastSent os =
          some (a, Token.followUpHeader server client ++ q.marker) := by
  refine Always.inquire fun os r m' hi => ⟨?_, ?_⟩
  · rintro before t target datagram copies after rfl
    obtain ⟨rfl, rfl, ht⟩ := hi.of_sent (List.mem_append_right _ List.mem_cons_self)
    obtain ⟨o, ho, rfl⟩ := hg.time_mem
    refine ⟨rfl, .inr ⟨o.time, m.now, ⟨?_, h.past_le o ho, hlt, server, client, q, ?_, rfl⟩, ht⟩⟩
    · -- No earlier datagram of the call is this one, so it was built when the inquiry began.
      rw [firstSent_append before hfresh]
      exact hi.firstSent_getD rfl
    · rw [← List.append_assoc]
      exact hg.append before
  · rintro r rfl
    refine ⟨rfl, ?_, fun t target d copies ho => (hi.of_sent ho).2.1, ?_⟩
    · rw [← List.append_assoc]
      exact h.append hi.now_le (fun o ho => (hi.time_mem o ho).2) fun before o after e c v g hos =>
        hi.not_grants _ (fun c => Token.requestFrame_ne_followUp _ _ _ _) hos
    · rintro x rfl
      obtain ⟨before, payload, source, rfl, hsource, hok⟩ := hi.settled x rfl
      refine ⟨⟨_, payload, source, by simp, of_decide_eq_true hsource, hok⟩, ?_⟩
      have hlast := hi.lastSent [] rfl
      simpa [lastSent_append, lastSent] using hlast

theorem always_requestFrame (patience : Nat) (q : Question) (h : Traced s (past ++ sofar) m)
    (ha : s.target = some a) :
    Always (requestFrame patience q) s m
      (Clean fun before t target datagram =>
        Proper s.settings a past (sofar ++ before) t target datagram)
      fun r s' os m' => Traced s' (past ++ (sofar ++ os)) m' ∧ s'.settings = s.settings ∧
        s'.target = some a ∧
        (∀ server client rest, Fresh os (Token.followUpHeader server client ++ rest)) ∧
        ∀ frame, r = .ok frame → ∃ client server g,
          frame = Token.followUpHeader server client ++ q.marker ∧
          Granted (past ++ (sofar ++ os)) (.ofSocket a) client server g ∧
          m'.now < g + s.settings.validity := by
  refine ((always_token patience h ha).mono (fun os hc => hc.proper sofar)
    fun r s' os m' hc hq => And.intro hc.fresh hq).bind ?_ ?_
  · rintro t s₁ os m₁ hclean ⟨hfresh, htraced, hset, ha₁, hok⟩
    refine .clock_bind (.ofExcept (by simpa using hclean)
      ⟨by simpa using htraced, hset, ha₁, by simpa using hfresh, ?_⟩)
    rintro frame hframe
    obtain ⟨g, hg, hx⟩ := hok t rfl
    cases hreq : Packet.request t q m₁.now with
    | error e => simp [wire, hreq] at hframe
    | ok frame' =>
      -- A token that was held may have expired meanwhile; then no frame is built.
      obtain ⟨hv, rfl⟩ := Packet.request_eq_ok_iff.mp hreq
      obtain ⟨x, hx', hlt⟩ := Token.isValid_iff.mp hv
      rw [hx, Option.some.injEq] at hx'
      refine ⟨t.client, t.server, g, ?_, by simpa using hg, hx' ▸ hlt⟩
      simpa [wire, hreq, eq_comm] using hframe
  · rintro f s₁ os m₁ ⟨hfresh, htraced, hset, ha₁, -⟩
    exact ⟨by simpa using htraced, hset, ha₁, hfresh, by simp⟩

theorem always_question {α : Type} {accept : Accept α} (sofar : List Occurrence) (patience : Nat)
    (q : Question)
    (h : Traced s (past ++ sofar) m) (ha : s.target = some a)
    (hsofar : ∀ server client, Fresh sofar (Token.followUpHeader server client ++ q.marker)) :
    Always (requestFrame patience q >>= fun frame => inquire patience a frame accept) s m
      (Clean fun before t target datagram =>
        Proper s.settings a past (sofar ++ before) t target datagram)
      fun r s' os m' => Traced s' (past ++ (sofar ++ os)) m' ∧ s'.settings = s.settings ∧
        s'.target = some a ∧
        (∀ q' ≠ q, ∀ server client, Fresh os (Token.followUpHeader server client ++ q'.marker)) ∧
        ∀ x, r = .ok x → Told os a accept x ∧ ∃ server client,
          lastSent os = some (a, Token.followUpHeader server client ++ q.marker) := by
  refine (always_requestFrame patience q h ha).bind ?_ ?_
  · rintro frame s₁ os m₁ hclean ⟨htraced, hset, ha₁, hfresh, hok⟩
    obtain ⟨client, server, g, rfl, hg, hlt⟩ := hok frame rfl
    rw [← hset] at hlt hclean ⊢
    refine (always_ask patience q htraced ((hsofar server client).append (hfresh server client _))
      hg hlt).mono (fun os' hc => hclean.append (by simpa only [List.append_assoc] using hc)) ?_
    rintro r s₂ os' m₂ - ⟨rfl, htraced, hcopies, hok⟩
    refine ⟨by simpa only [List.append_assoc] using htraced, rfl, ha₁, fun q' hq server' client' =>
      (hfresh _ _ _).append fun t target d copies ho heq => ?_, fun x hx => ?_⟩
    · rw [hcopies t target d copies ho] at heq
      exact hq (Question.marker_injective (Token.followUpHeader_append_inj heq).2).symm
    · exact ⟨(hok x hx).1.append_left os, server, client, lastSent_append_of_some (hok x hx).2⟩
  · rintro f s₁ os m₁ ⟨htraced, hset, ha₁, hfresh, -⟩
    exact ⟨htraced, hset, ha₁, fun q' _ server client => hfresh server client _, by simp⟩

end Query
end ServerDiscovery.Client
