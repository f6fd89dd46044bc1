import ServerDiscovery.Proofs.Client.Collection
import ServerDiscovery.Proofs.Packet.Frame
import ServerDiscovery.Proofs.Packet.Payload

/-! How much of its list a session takes in from a master. All pieces that come once the list has
been asked for are taken in, and those that name somebody new are no more than the chunks which the
greatest count fills. -/

namespace ServerDiscovery.Client

/-- The servers that an occurrence names if it is a piece of the list from an endpoint. -/
def piece? (e : Endpoint) (o : Occurrence) : Option (List Endpoint) :=
  (listReply? e o).map Packet.parseList

def Occurrence.asks (q : Question) : Occurrence → Bool
  | sent _ _ datagram _ => datagram.drop Token.headerSize = q.marker
  | received _ _ => false

def sinceAsked (q : Question) (os : List Occurrence) : List Occurrence :=
  os.dropWhile fun o => !o.asks q

/-- The pieces of its list that come from a master which has been asked for it. -/
def absorbed (master : Endpoint) (os : List Occurrence) : List (List Endpoint) :=
  (sinceAsked .list os).filterMap (piece? master)

def Quiet (q : Question) (os : List Occurrence) : Prop := ∀ o ∈ os, o.asks q = false

variable {α : Type} {e : Endpoint} {q : Question} {o : Occurrence} {os os' : List Occurrence}
  {piece : List Endpoint}

theorem piece?_eq_some_iff : piece? e o = some piece ↔ ∃ t datagram source payload,
    o = .received t (.datagram datagram source) ∧ Endpoint.ofSocket source = e ∧
      Packet.expectResponse datagram .list = .ok payload ∧ Packet.parseList payload = piece := by
  simp only [piece?, Option.map_eq_some_iff, listReply?_eq_some_iff]
  constructor
  · rintro ⟨payload, ⟨t, datagram, source, ho, hsource, hpayload⟩, hpiece⟩
    exact ⟨t, datagram, source, payload, ho, hsource, hpayload, hpiece⟩
  · rintro ⟨t, datagram, source, payload, ho, hsource, hpayload, hpiece⟩
    exact ⟨payload, ⟨t, datagram, source, ho, hsource, hpayload⟩, hpiece⟩

/-! ### Before the list is asked for -/

theorem Quiet.append (h : Quiet q os) (h' : Quiet q os') : Quiet q (os ++ os') :=
  List.forall_mem_append.mpr ⟨h, h'⟩

theorem Quiet.absorbed_append (h : Quiet .list os) (e : Endpoint) (os' : List Occurrence) :
    absorbed e (os ++ os') = absorbed e os' := by
  unfold absorbed sinceAsked
  rw [List.dropWhile_append_of_pos fun o ho => by rw [h o ho]; rfl]

theorem Quiet.absorbed_eq_nil (h : Quiet .list os) (e : Endpoint) : absorbed e os = [] := by
  have hnone := h.absorbed_append e []
  rwa [List.append_nil] at hnone

theorem Quiet.novel_absorbed_le (h : Quiet .list os) (e : Endpoint) (n : Nat) :
    Query.novel [] (absorbed e os) ≤ n := by
  rw [h.absorbed_eq_nil]
  exact Nat.zero_le n

theorem absorbed_of_asks (h : ∀ o ∈ os.head?, o.asks .list = true) :
    absorbed e os = os.filterMap (piece? e) := by
  cases os with
  | nil => rfl
  | cons o os =>
    unfold absorbed sinceAsked
    rw [List.dropWhile_cons_of_neg (by simp [h o rfl])]

theorem Inquired.quiet {pacing : Pacing} {target : SocketAddress} {request : Bytes}
    {accept : Accept α} {m m' : Moment} {r : Option (Except Failure α)}
    (h : Inquired pacing target request accept m os r m')
    (hrequest : request.drop Token.headerSize ≠ q.marker) : Quiet q os := by
  intro o ho
  cases o with
  | sent t target' datagram copies =>
    obtain ⟨-, rfl, -⟩ := h.of_sent ho
    exact decide_eq_false hrequest
  | received t reception => rfl

theorem drop_requestFrame_ne_marker (t : Token) (q : Question) :
    t.requestFrame.drop Token.headerSize ≠ q.marker := by
  intro h
  have hlength : (t.requestFrame.drop Token.headerSize).length = 510 := by
    rw [List.length_drop, t.length_requestFrame]
    rfl
  rw [h] at hlength
  cases q <;> cases hlength

theorem drop_followUp (server client : Int32) (q : Question) :
    (Token.followUpHeader server client ++ q.marker).drop Token.headerSize = q.marker :=
  List.drop_left' (Token.length_followUpHeader server client)

namespace Query

variable {s : Session} {m m' : Moment} {a : SocketAddress}

theorem always_token_quiet (patience : Nat) (q : Question) (ha : s.target = some a) :
    Always (token patience) s m (Quiet q) fun _ s' _ _ => s'.target = some a := by
  refine .target_bind ha (.heldToken_bind ?_)
  cases (s.tokens.get (.ofSocket a) m.now).1 with
  | some t => exact .pure (by simp [Quiet]) ha
  | none =>
    refine .modifyGet_bind (.get_bind (Always.bind (.inquire (Q := fun _ s' _ _ =>
      s'.target = some a) fun os r m' hi => ?_) ?_ ?_))
    · exact ⟨hi.quiet (drop_requestFrame_ne_marker _ q), fun _ _ => ha⟩
    · intro t s₁ os m₁ hquiet ha₁
      exact .clock_bind (.modifyGet_bind (.pure (by simpa using hquiet) ha₁))
    · exact fun f s₁ os m₁ ha₁ => ha₁

theorem always_requestFrame_quiet (patience : Nat) (q q' : Question) (ha : s.target = some a) :
    Always (requestFrame patience q') s m (Quiet q) fun r s' _ _ => s'.target = some a ∧
      ∀ frame, r = .ok frame → ∃ server client,
        frame = Token.followUpHeader server client ++ q'.marker := by
  refine (always_token_quiet patience q ha).bind ?_ ?_
  · intro t s₁ os m₁ hquiet ha₁
    refine .clock_bind (.ofExcept (by simpa using hquiet) ⟨ha₁, fun frame hframe => ?_⟩)
    cases hrequest : Packet.request t q' m₁.now with
    | error fault => simp [wire, hrequest] at hframe
    | ok frame' =>
      obtain ⟨-, rfl⟩ := Packet.request_eq_ok_iff.mp hrequest
      exact ⟨t.server, t.client, by simpa [wire, hrequest, eq_comm] using hframe⟩
  · exact fun f s₁ os m₁ ha₁ => ⟨ha₁, by simp⟩

theorem always_count_le (patience : Nat) (ha : s.target = some a) :
    Always (count patience) s m (Quiet .list) fun r s' _ _ => s'.target = some a ∧
      ∀ n, r = .ok n → n ≤ Packet.greatestCount := by
  refine .target_bind ha ((always_requestFrame_quiet patience .list .count ha).bind ?_ ?_)
  · rintro frame s₁ os₁ m₁ hquiet ⟨ha₁, hframe⟩
    obtain ⟨server, client, rfl⟩ := hframe frame rfl
    have hother : (Token.followUpHeader server client ++ Question.count.marker).drop
        Token.headerSize ≠ Question.list.marker := by
      rw [drop_followUp]
      decide
    refine .inquire fun os r m' hi => ⟨hquiet.append (hi.quiet hother), ?_⟩
    rintro r rfl
    refine ⟨ha₁, fun n hn => ?_⟩
    obtain ⟨before, datagram, source, -, -, hok⟩ := hi.settled n (congrArg some hn)
    obtain ⟨payload, -, hcount⟩ := acceptCount_eq_ok_iff.mp hok
    exact Packet.le_of_parseCount hcount
  · exact fun f s₁ os m₁ h => ⟨h.1, by simp⟩

/-! ### Taking in pieces -/

section Gather

variable {source : Endpoint} {expected chunks : Nat} {known : List Endpoint}
  {r : Option (Except Failure (List Endpoint))}

/-- The pieces that come from here on are all taken in, and of those that name somebody new there
are no more than are still expected. -/
structure Absorbs (source : Endpoint) (expected chunks : Nat) (known : List Endpoint)
    (os : List Occurrence) (r : Option (Except Failure (List Endpoint))) : Prop where
  few : chunks + novel known (os.filterMap (piece? source)) ≤ max expected chunks
  all : ∀ es, r = some (.ok es) →
    es = Endpoint.distinct (known ++ (os.filterMap (piece? source)).flatten)

theorem Absorbs.nil (h : ∀ es, r = some (.ok es) → es = Endpoint.distinct known) :
    Absorbs source expected chunks known [] r :=
  ⟨le_max_right _ _, by simpa using h⟩

theorem Absorbs.cons_other (ho : piece? source o = none)
    (h : Absorbs source expected chunks known os r) :
    Absorbs source expected chunks known (o :: os) r := by
  constructor <;> rw [List.filterMap_cons_none ho]
  · exact h.few
  · exact h.all

theorem Absorbs.cons_piece (ho : piece? source o = some piece) (hmore : ¬ expected ≤ chunks)
    (h : Absorbs source expected (chunks + if ∃ e ∈ piece, e ∉ known then 1 else 0)
      (known ++ piece) os r) : Absorbs source expected chunks known (o :: os) r := by
  constructor <;> rw [List.filterMap_cons_some ho]
  · have hrest := h.few
    have hstep : (if ∃ e ∈ piece, e ∉ known then 1 else 0) ≤ 1 := by split_ifs <;> decide
    rw [novel]
    omega
  · intro es hes
    rw [h.all es hes, List.flatten_cons, List.append_assoc]

theorem absorbs_of_course_gather {patience : Nat}
    (h : Dialogue.Course (gather source expected patience chunks (Endpoint.distinct known)) m os r m') :
    Absorbs source expected chunks known os r := by
  induction patience generalizing chunks known m os with
  | zero =>
    rw [gather] at h
    split_ifs at h
    · cases h <;> exact .nil (by simp [eq_comm])
    · cases h
      exact .nil (by simp)
  | succ patience ih =>
    rw [gather] at h
    split_ifs at h with hmore
    · cases h <;> exact .nil (by simp [eq_comm])
    · cases h with
      | broken => exact .nil (by simp)
      | receive x t _ _ _ h =>
        cases x with
        | timedOut | failed | cancelled =>
          cases h <;> exact .cons_other rfl (.nil (by simp [eq_comm]))
        | datagram datagram sender =>
          simp only at h
          split_ifs at h with hfrom
          · cases hreply : Packet.expectResponse datagram .list with
            | ok payload =>
              rw [hreply] at h
              simp only [count_unseen, distinct_append_unseen] at h
              exact .cons_piece (piece?_eq_some_iff.mpr
                ⟨t, datagram, sender, payload, rfl, hfrom, hreply, rfl⟩) hmore (ih h)
            | error fault =>
              rw [hreply] at h
              exact .cons_other (by simp [piece?, listReply?, hfrom, hreply, Except.toOption]) (ih h)
          · exact .cons_other (by simp [piece?, listReply?, hfrom]) (ih h)

end Gather

/-! ### From the question to the last piece -/

theorem pieces_of_inquired {pacing : Pacing} {request : Bytes}
    {r : Option (Except Failure (List Endpoint))}
    (h : Inquired pacing a request acceptList m os r m') :
    (os.filterMap (piece? (.ofSocket a)) = [] ∧ ∀ first, r ≠ some (.ok first)) ∨
      ∃ first, os.filterMap (piece? (.ofSocket a)) = [first] ∧ ∀ r', r = some r' → r' = .ok first := by
  cases hpieces : os.filterMap (piece? (.ofSocket a)) with
  | nil =>
    refine .inl ⟨rfl, fun first hr => ?_⟩
    obtain ⟨before, datagram, source, rfl, hfrom, hok⟩ := h.settled first hr
    obtain ⟨payload, hpayload, rfl⟩ := acceptList_eq_ok_iff.mp hok
    have hpiece := piece?_eq_some_iff.mpr
      ⟨m'.now, datagram, source, payload, rfl, of_decide_eq_true hfrom, hpayload, rfl⟩
    have hnone := List.filterMap_eq_nil_iff.mp hpieces _ (List.mem_append_right _ List.mem_cons_self)
    cases hpiece.symm.trans hnone
  | cons first rest =>
    obtain ⟨before, o, after, rfl, -, ho, hrest⟩ := List.filterMap_eq_cons_iff.mp hpieces
    obtain ⟨t, datagram, source, payload, rfl, hsource, hpayload, rfl⟩ := piece?_eq_some_iff.mp ho
    obtain ⟨rfl, hr⟩ := h.last before t datagram source after (Packet.parseList payload) rfl
      (decide_eq_true hsource) (acceptList_eq_ok_iff.mpr ⟨payload, hpayload, rfl⟩)
    exact .inr ⟨_, by rw [← hrest]; rfl, hr⟩

theorem always_first (patience : Nat) (server client : Int32) :
    Always (inquire patience a (Token.followUpHeader server client ++ Question.list.marker)
        acceptList) s m
      (fun os => novel [] (absorbed (.ofSocket a) os) ≤ 1)
      fun r s' os _ => s' = s ∧ ∀ first, r = .ok first → ∀ os',
        absorbed (.ofSocket a) (os ++ os') = first :: os'.filterMap (piece? (.ofSocket a)) := by
  refine .inquire fun os r m' hi => ?_
  have hasks : ∀ o ∈ os.head?, o.asks .list = true := by
    intro o ho
    rw [hi.head o ho]
    exact decide_eq_true (drop_followUp server client .list)
  rw [absorbed_of_asks hasks]
  rcases pieces_of_inquired hi with ⟨hnone, hr⟩ | ⟨first, hone, hr⟩
  · rw [hnone]
    refine ⟨Nat.zero_le _, ?_⟩
    rintro r rfl
    exact ⟨rfl, fun first hfirst => absurd (congrArg some hfirst) (hr first)⟩
  · refine ⟨hone ▸ novel_le_length [] [first], ?_⟩
    rintro r rfl
    refine ⟨rfl, fun first' hfirst os' => ?_⟩
    obtain rfl : first' = first := Except.ok.inj (hfirst.symm.trans (hr r rfl))
    have hne : os ≠ [] := by
      rintro rfl
      cases hone
    have hasks' : ∀ o ∈ (os ++ os').head?, o.asks .list = true := by
      rwa [List.head?_append_of_ne_nil _ hne]
    rw [absorbed_of_asks hasks', List.filterMap_append, hone, List.singleton_append]

theorem always_list_absorbed (patience expected : Nat) (ha : s.target = some a) :
    Always (do
        let frame ← requestFrame patience .list
        let started ← clock
        let first ← inquire patience a frame acceptList
        let deadline := started + (← get).settings.pacing.budget
        ofDialogue <| .readUntil deadline <|
          gather (Endpoint.ofSocket a) expected patience 1 (unseen [] first)) s m
      (fun os => novel [] (absorbed (.ofSocket a) os) ≤ max expected 1)
      fun r _ os _ => ∀ es, r = .ok es →
        es = Endpoint.distinct (absorbed (.ofSocket a) os).flatten := by
  refine ((always_requestFrame_quiet patience .list .list ha).keep
    fun os hquiet => hquiet.novel_absorbed_le _ _).bind ?_ ?_
  · rintro frame s₁ os₁ m₁ - ⟨hquiet, -, hframe⟩
    obtain ⟨server, client, rfl⟩ := hframe frame rfl
    simp only [hquiet.absorbed_append]
    refine .clock_bind (((always_first patience server client).guard
      fun os hone => hone.trans (le_max_right _ _)).bind ?_ ?_)
    · rintro first s₂ os₂ m₂ - ⟨rfl, hfirst⟩
      simp only [hfirst first rfl]
      refine .get_bind (.ofDialogue fun os r m' hc => ?_)
      cases hc with
      | broken => exact ⟨(novel_le_length [] [first]).trans (le_max_right _ _), by simp⟩
      | readUntil hc =>
        have hdistinct : unseen [] first = Endpoint.distinct first := distinct_append_unseen [] first
        rw [hdistinct] at hc
        have habsorbs := absorbs_of_course_gather hc
        refine ⟨(novel_cons_le ..).trans habsorbs.few, ?_⟩
        rintro r rfl es rfl
        exact habsorbs.all es rfl
    · rintro f s₂ os₂ m₂ -
      simp
  · rintro f s₁ os₁ m₁ -
    simp

theorem expectedChunks_mono {n n' : Nat} (h : n ≤ n') : expectedChunks n ≤ expectedChunks n' :=
  Nat.div_le_div_right (by omega)

theorem always_servers_absorbed (patience : Nat) (ha : s.target = some a) :
    Always (servers patience) s m
      (fun os => novel [] (absorbed (.ofSocket a) os) ≤ expectedChunks Packet.greatestCount)
      fun r _ os _ => ∀ es, r = .ok es →
        es = Endpoint.distinct (absorbed (.ofSocket a) os).flatten := by
  refine .target_bind ha (((always_count_le patience ha).keep
    fun os hquiet => hquiet.novel_absorbed_le _ _).bind ?_ ?_)
  · rintro n s₁ os₁ m₁ - ⟨hquiet, ha₁, hcount⟩
    simp only [hquiet.absorbed_append]
    split_ifs with hn
    · refine .pure (Nat.zero_le _) ?_
      rintro es ⟨⟩
      rfl
    · refine (always_list_absorbed patience (expectedChunks n) ha₁).guard fun os hfew =>
        hfew.trans (max_le (expectedChunks_mono (hcount n rfl)) (by decide))
  · rintro f s₁ os₁ m₁ -
    simp

end Query
end ServerDiscovery.Client
